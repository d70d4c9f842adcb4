import LogRelay.Address
import LogRelay.Proofs.Text.Numerals
import Mathlib.Data.List.Basic

/-!
# The two forms of an address

No host stands in an address in such a way that the scheme could be read there once more: a host
that holds a colon is in brackets, and any other ends before the first colon. So the two forms of an
address differ by one scheme. The digits of a port hold no colon either, and therefore an address
tells its host and its port apart at the last colon.
-/

namespace LogRelay.Address

variable {host host' : List Char} {digits digits' : List Char}

/-! ## The scheme in front -/

theorem dropScheme_scheme_append (cs : List Char) : dropScheme (scheme ++ cs) = dropScheme cs := by
  rw [scheme]
  exact dropScheme.eq_1 cs

theorem dropScheme_of_not_prefix {cs : List Char} (h : ¬scheme <+: cs) : dropScheme cs = cs := by
  rw [dropScheme]
  rintro rest rfl
  exact h ⟨rest, rfl⟩

/-- A host without brackets holds no colon, or starts with a bracket of its own. -/
theorem cases_of_not_needsBrackets (h : needsBrackets host = false) :
    ':' ∉ host ∨ ∃ rest, host = '[' :: rest := by
  simp only [needsBrackets, Bool.and_eq_false_iff, bne_eq_false_iff_eq, List.head?_eq_some_iff] at h
  refine h.imp_left fun hcolon hmem => ?_
  rw [List.contains_iff_mem.mpr hmem] at hcolon
  cases hcolon

/-- In an address without brackets the only colon stands in front of the port, where the scheme goes
on with slashes. -/
theorem not_scheme_prefix (hhost : ':' ∉ host) (hdigits : ∀ c ∈ digits, c.isDigit = true) :
    ¬scheme <+: host ++ ':' :: digits := by
  rintro ⟨rest, hrest⟩
  have hport : ':' ∉ digits := fun hmem => nomatch hdigits ':' hmem
  have hsplit : host ++ ':' :: digits = ['t', 'c', 'p'] ++ ':' :: ('/' :: '/' :: rest) := hrest.symm
  obtain ⟨-, -, rfl⟩ := (List.append_cons_inj_of_notMem hhost hport).mp hsplit
  cases hdigits '/' List.mem_cons_self

theorem not_scheme_prefix_hostChars (hdigits : ∀ c ∈ digits, c.isDigit = true) :
    ¬scheme <+: hostChars host ++ ':' :: digits := by
  cases hbrackets : needsBrackets host with
  | true =>
      rw [hostChars, if_pos hbrackets]
      rintro ⟨rest, hrest⟩
      cases hrest
  | false =>
      rw [hostChars, hbrackets, if_neg Bool.false_ne_true]
      rcases cases_of_not_needsBrackets hbrackets with hhost | ⟨rest, rfl⟩
      · exact not_scheme_prefix hhost hdigits
      · rintro ⟨rest', hrest⟩
        cases hrest

/-! ## Addresses as texts -/

theorem isDigit_of_mem_port (port : UInt16) :
    ∀ c ∈ port.toNat.repr.toList, c.isDigit = true := by
  intro c hc
  rw [Nat.toList_repr] at hc
  exact Nat.isDigit_of_mem_toDigits (by decide) (by decide) hc

theorem colon_notMem_port (port : UInt16) : ':' ∉ port.toNat.repr.toList := fun hmem =>
  nomatch isDigit_of_mem_port port ':' hmem

theorem tcpChars_eq (host : List Char) (port : UInt16) :
    tcpChars host port = scheme ++ (hostChars host ++ ':' :: port.toNat.repr.toList) := by
  rw [tcpChars, Nat.toList_repr, List.append_assoc]

theorem toList_tcp (host : String) (port : UInt16) :
    (tcp host port).toList =
      scheme ++ (hostChars host.toList ++ ':' :: port.toNat.repr.toList) := by
  rw [tcp, String.toList_ofList, tcpChars_eq]

theorem toList_socket (host : String) (port : UInt16) :
    (socket host port).toList = hostChars host.toList ++ ':' :: port.toNat.repr.toList := by
  rw [socket, String.toList_ofList, tcpChars_eq, dropScheme_scheme_append]
  exact dropScheme_of_not_prefix (not_scheme_prefix_hostChars (isDigit_of_mem_port port))

/-! ## The last colon -/

theorem eq_nil_of_colon_notMem {between : List Char} (h : ':' ∉ digits)
    (heq : ':' :: digits = between ++ ':' :: digits') : between = [] := by
  cases between with
  | nil => rfl
  | cons c between =>
      cases heq
      exact absurd (List.mem_append_right between List.mem_cons_self) h

theorem split_last_colon {front front' : List Char} (h : ':' ∉ digits) (h' : ':' ∉ digits')
    (heq : front ++ ':' :: digits = front' ++ ':' :: digits') :
    front = front' ∧ digits = digits' := by
  rcases List.append_eq_append_iff.mp heq with ⟨between, rfl, hrest⟩ | ⟨between, rfl, hrest⟩
  · obtain rfl := eq_nil_of_colon_notMem h hrest
    exact ⟨(List.append_nil front).symm, (List.cons.inj hrest).2⟩
  · obtain rfl := eq_nil_of_colon_notMem h' hrest
    exact ⟨List.append_nil front', (List.cons.inj hrest).2.symm⟩

/-! ## Brackets -/

theorem needsBrackets_bracket (cs : List Char) : needsBrackets ('[' :: cs) = false := by
  simp [needsBrackets]

theorem hostChars_of_needsBrackets (h : needsBrackets host = true) :
    hostChars host = '[' :: host ++ [']'] :=
  if_pos h

theorem hostChars_of_not_needsBrackets (h : needsBrackets host = false) : hostChars host = host :=
  if_neg (Bool.not_eq_true _ ▸ h)

/-- A host in brackets stands in an address as the host without them. -/
theorem hostChars_bracketed (h : needsBrackets host = true) :
    hostChars ('[' :: host ++ [']']) = hostChars host := by
  rw [hostChars_of_needsBrackets h, List.cons_append,
    hostChars_of_not_needsBrackets (needsBrackets_bracket _)]

/-- The second host is the first one in the one pair of brackets that it needs. -/
structure Wraps (bare wrapped : String) : Prop where
  colon : ':' ∈ bare.toList
  unbracketed : bare.toList.head? ≠ some '['
  eq : wrapped = "[" ++ bare ++ "]"

theorem wraps_iff {bare wrapped : String} :
    Wraps bare wrapped ↔
      needsBrackets bare.toList = true ∧ wrapped.toList = '[' :: bare.toList ++ [']'] := by
  have hneeds : needsBrackets bare.toList = true ↔
      ':' ∈ bare.toList ∧ bare.toList.head? ≠ some '[' := by
    rw [needsBrackets, Bool.and_eq_true, List.contains_iff_mem, bne_iff_ne]
  have hwrapped : wrapped = "[" ++ bare ++ "]" ↔
      wrapped.toList = '[' :: bare.toList ++ [']'] := by
    rw [← String.toList_inj, String.toList_append, String.toList_append]
    rfl
  rw [hneeds, ← hwrapped]
  exact ⟨fun ⟨colon, unbracketed, heq⟩ => ⟨⟨colon, unbracketed⟩, heq⟩,
    fun ⟨⟨colon, unbracketed⟩, heq⟩ => ⟨colon, unbracketed, heq⟩⟩

/-- Two hosts stand in addresses alike if they are equal or one of them is the other in brackets. -/
theorem hostChars_eq_iff {left right : String} :
    hostChars left.toList = hostChars right.toList ↔
      left = right ∨ Wraps left right ∨ Wraps right left := by
  constructor
  · intro heq
    cases hleft : needsBrackets left.toList with
    | true =>
        cases hright : needsBrackets right.toList with
        | true =>
            rw [hostChars_of_needsBrackets hleft, hostChars_of_needsBrackets hright] at heq
            exact .inl (String.toList_inj.mp (List.append_cancel_right (List.cons.inj heq).2))
        | false =>
            rw [hostChars_of_needsBrackets hleft, hostChars_of_not_needsBrackets hright] at heq
            exact .inr (.inl (wraps_iff.mpr ⟨hleft, heq.symm⟩))
    | false =>
        rw [hostChars_of_not_needsBrackets hleft] at heq
        cases hright : needsBrackets right.toList with
        | true =>
            rw [hostChars_of_needsBrackets hright] at heq
            exact .inr (.inr (wraps_iff.mpr ⟨hright, heq⟩))
        | false =>
            rw [hostChars_of_not_needsBrackets hright] at heq
            exact .inl (String.toList_inj.mp heq)
  · rintro (rfl | wraps | wraps)
    · rfl
    · obtain ⟨hneeds, heq⟩ := wraps_iff.mp wraps
      rw [heq, hostChars_bracketed hneeds]
    · obtain ⟨hneeds, heq⟩ := wraps_iff.mp wraps
      rw [heq, hostChars_bracketed hneeds]

/-! ## Both forms -/

theorem socket_eq_iff {host host' : String} {port port' : UInt16} :
    socket host port = socket host' port' ↔
      port = port' ∧ hostChars host.toList = hostChars host'.toList := by
  constructor
  · intro heq
    have hlists := congrArg String.toList heq
    rw [toList_socket, toList_socket] at hlists
    obtain ⟨hhosts, hports⟩ :=
      split_last_colon (colon_notMem_port port) (colon_notMem_port port') hlists
    rw [Nat.toList_repr, Nat.toList_repr] at hports
    exact ⟨UInt16.toNat_inj.mp (Text.toDigits_injective hports), hhosts⟩
  · rintro ⟨rfl, hhosts⟩
    rw [← String.toList_inj, toList_socket, toList_socket, hhosts]

/-- The second text is what stands behind the last colon of the first. -/
def BehindLastColon (s back : String) : Prop :=
  (∃ front, s = front ++ ":" ++ back) ∧ ':' ∉ back.toList

theorem behindLastColon_socket_iff {host back : String} {port : UInt16} :
    BehindLastColon (socket host port) back ↔ back = port.toNat.repr := by
  constructor
  · rintro ⟨⟨front, hsplit⟩, hback⟩
    have hlists := congrArg String.toList hsplit
    rw [toList_socket, String.toList_append, String.toList_append, List.append_assoc] at hlists
    exact String.toList_inj.mp (split_last_colon (colon_notMem_port port) hback hlists).2.symm
  · rintro rfl
    refine ⟨⟨String.ofList (hostChars host.toList), ?_⟩, colon_notMem_port port⟩
    rw [← String.toList_inj, toList_socket, String.toList_append, String.toList_append,
      String.toList_ofList, List.append_assoc]
    rfl

/-- The address with the scheme is the other one behind the scheme, whatever the host holds; behind
the last colon stands the port in decimal; and two addresses are equal exactly when the ports are
and the hosts differ at most by the brackets that one of them needs. -/
theorem forms_unambiguous (host : String) (port : UInt16) :
    tcp host port = "tcp://" ++ socket host port ∧
      (∀ back, BehindLastColon (socket host port) back ↔ back = port.toNat.repr) ∧
      ∀ host' port', socket host port = socket host' port' ↔
        port = port' ∧ (host = host' ∨ Wraps host host' ∨ Wraps host' host) := by
  refine ⟨?_, fun back => behindLastColon_socket_iff, fun host' port' => ?_⟩
  · rw [← String.toList_inj, toList_tcp, String.toList_append, toList_socket]
    rfl
  · rw [socket_eq_iff, hostChars_eq_iff]

example : socket "tcp://h" 80 = "[tcp://h]:80" := rfl

end LogRelay.Address
