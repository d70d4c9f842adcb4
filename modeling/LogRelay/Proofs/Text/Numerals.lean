import LogRelay.Text.Numeral
import Mathlib.Data.List.Induction
import Mathlib.Tactic.SplitIfs

/-!
# Decimal numerals in both directions

The digits of a number are read as that number, and a text is read exactly when it is a numeral of
its value. Numbers are written without a sign, but a numeral may have zeros and one plus sign in
front.
-/

namespace LogRelay.Text

/-! ## Digits -/

/-- The characters are digits of which there is at least one, and spell the number in base ten. -/
structure Denotes (digits : List Char) (n : Nat) : Prop where
  ne_nil : digits ≠ []
  isDigit : ∀ c ∈ digits, c.isDigit = true
  value : Nat.ofDigitChars 10 digits 0 = n

theorem digitsValue_eq_ofDigitChars (acc : Nat) (cs : List Char) :
    digitsValue acc cs = Nat.ofDigitChars 10 cs acc := by
  induction cs generalizing acc with
  | nil => rw [digitsValue_nil, Nat.ofDigitChars_nil]
  | cons c cs ih => rw [digitsValue_cons, ih, Nat.ofDigitChars_cons, Nat.mul_comm]

theorem natOfDigits?_eq_some_iff {cs : List Char} {n : Nat} :
    natOfDigits? cs = some n ↔ Denotes cs n := by
  rw [natOfDigits?, digitsValue_eq_ofDigitChars]
  split_ifs with h
  · simp only [Bool.or_eq_true, List.isEmpty_iff, Bool.not_eq_true', List.all_eq_false] at h
    refine ⟨fun hnone => (nomatch hnone), fun ⟨hne, hdigit, _⟩ => ?_⟩
    rcases h with hnil | ⟨c, hc, hother⟩
    · exact absurd hnil hne
    · exact absurd (hdigit c hc) hother
  · simp only [Bool.or_eq_true, List.isEmpty_iff, Bool.not_eq_true', not_or, Bool.not_eq_false,
      List.all_eq_true] at h
    rw [Option.some.injEq]
    exact ⟨fun value => ⟨h.1, h.2, value⟩, Denotes.value⟩

theorem denotes_toDigits (n : Nat) : Denotes (Nat.toDigits 10 n) n :=
  ⟨Nat.toDigits_ne_nil, fun _ hc => Nat.isDigit_of_mem_toDigits (by decide) (by decide) hc,
    Nat.ofDigitChars_ten_toDigits⟩

theorem toDigits_injective {m n : Nat} (h : Nat.toDigits 10 m = Nat.toDigits 10 n) : m = n := by
  calc
    m = Nat.ofDigitChars 10 (Nat.toDigits 10 m) 0 := Nat.ofDigitChars_ten_toDigits.symm
    _ = Nat.ofDigitChars 10 (Nat.toDigits 10 n) 0 := by rw [h]
    _ = n := Nat.ofDigitChars_ten_toDigits

/-- Zeros in front of a numeral do not change its value. -/
theorem Denotes.zeros_append {digits : List Char} {n : Nat} (h : Denotes digits n) (k : Nat) :
    Denotes (List.replicate k '0' ++ digits) n := by
  refine ⟨by simp [h.ne_nil], fun c hc => ?_, ?_⟩
  · rcases List.mem_append.mp hc with hzero | hc
    · rw [List.eq_of_mem_replicate hzero]
      rfl
    · exact h.isDigit c hc
  · rw [Nat.ofDigitChars_append, Nat.ofDigitChars_replicate_zero, Nat.mul_zero, h.value]

theorem digitChar_of_isDigit {c : Char} (h : c.isDigit = true) :
    c.toNat - '0'.toNat < 10 ∧ (c.toNat - '0'.toNat).digitChar = c := by
  have hbounds : '0'.toNat ≤ c.toNat ∧ c.toNat ≤ '9'.toNat := by
    simpa [Char.isDigit, UInt32.le_iff_toNat_le] using h
  have hzero : '0'.toNat = 48 := rfl
  have hnine : '9'.toNat = 57 := rfl
  have hsmall : c.toNat - '0'.toNat < 10 := by omega
  refine ⟨hsmall, Char.toNat_inj.mp ?_⟩
  rw [Nat.toNat_digitChar_of_lt_ten hsmall]
  omega

/-- A numeral is the shortest one of its value with zeros in front. -/
theorem Denotes.eq_zeros_append {digits : List Char} {n : Nat} (h : Denotes digits n) :
    ∃ k, digits = List.replicate k '0' ++ Nat.toDigits 10 n := by
  induction digits using List.reverseRecOn generalizing n with
  | nil => exact absurd rfl h.ne_nil
  | append_singleton front c ih =>
      obtain ⟨-, hdigits, hvalue⟩ := h
      rw [List.forall_mem_append] at hdigits
      obtain ⟨hsmall, hchar⟩ := digitChar_of_isDigit (hdigits.2 c List.mem_cons_self)
      rw [Nat.ofDigitChars_append, Nat.ofDigitChars_cons, Nat.ofDigitChars_nil] at hvalue
      generalize c.toNat - '0'.toNat = digit at hsmall hchar hvalue
      have hlast : Nat.toDigits 10 digit = [c] := by
        rw [Nat.toDigits_of_lt_base hsmall, hchar]
      by_cases hfront : front = []
      · subst hfront
        refine ⟨0, ?_⟩
        rw [← hvalue, Nat.ofDigitChars_nil, Nat.mul_zero, Nat.zero_add, hlast]
        rfl
      · obtain ⟨k, hk⟩ := ih ⟨hfront, hdigits.1, rfl⟩
        generalize Nat.ofDigitChars 10 front 0 = m at hk hvalue
        rcases Nat.eq_zero_or_pos m with rfl | hpos
        · refine ⟨k + 1, ?_⟩
          rw [hk, ← hvalue, Nat.mul_zero, Nat.zero_add, hlast, Nat.toDigits_zero,
            List.replicate_succ']
        · refine ⟨k, ?_⟩
          rw [hk, ← hvalue, ← Nat.toDigits_append_toDigits (by decide) hpos hsmall, hlast,
            List.append_assoc]

/-- The shortest numeral of more than one digit does not begin with a zero. -/
theorem head?_toDigits_ne {n : Nat} (h : 1 < (Nat.toDigits 10 n).length) :
    (Nat.toDigits 10 n).head? ≠ some '0' := by
  intro hzero
  obtain ⟨rest, hrest⟩ := List.head?_eq_some_iff.mp hzero
  obtain ⟨-, hdigits, hvalue⟩ := denotes_toDigits n
  rw [hrest, List.length_cons] at h
  rw [hrest, Nat.ofDigitChars_cons] at hvalue
  rw [hrest] at hdigits
  have hnonempty : rest ≠ [] := List.ne_nil_of_length_pos (by omega)
  -- Without its zero the numeral would still have the value, and all numerals of it are longer.
  obtain ⟨k, hk⟩ := Denotes.eq_zeros_append
    ⟨hnonempty, (List.forall_mem_cons.mp hdigits).2, hvalue⟩
  have hlength := congrArg List.length hk
  rw [List.length_append, List.length_replicate, hrest, List.length_cons] at hlength
  omega

/-! ## Numerals with an optional sign -/

/-- The text is a numeral of the number: its digits, or its digits behind one plus sign. -/
inductive Numeral (n : Nat) (s : String) : Prop
  | plain (denotes : Denotes s.toList n)
  | signed {digits : List Char} (split : s.toList = '+' :: digits) (denotes : Denotes digits n)

theorem not_denotes_plus {digits : List Char} {n : Nat} : ¬Denotes ('+' :: digits) n := by
  intro h
  cases h.isDigit '+' List.mem_cons_self

/-- A numeral is read if its value is below the bound, and nothing else is read. -/
theorem readBelow?_eq_some_iff {bound n : Nat} {s : String} :
    readBelow? bound s = some n ↔ Numeral n s ∧ n < bound := by
  simp only [readBelow?, Option.filter_eq_some_iff, decide_eq_true_eq, natOfDigits?_eq_some_iff]
  refine and_congr_left fun _ => ?_
  split
  · next rest hs =>
    constructor
    · intro denotes
      exact .signed hs denotes
    · intro numeral
      cases numeral with
      | plain denotes => exact absurd (hs ▸ denotes) not_denotes_plus
      | signed split denotes =>
          rw [hs] at split
          cases split
          exact denotes
  · next cs hplus =>
    constructor
    · intro denotes
      exact .plain denotes
    · intro numeral
      cases numeral with
      | plain denotes => exact denotes
      | signed split => exact absurd split (hplus _)

theorem readUInt16?_eq_some_iff {s : String} {n : UInt16} :
    readUInt16? s = some n ↔ Numeral n.toNat s := by
  simp only [readUInt16?, Option.map_eq_some_iff, readBelow?_eq_some_iff]
  constructor
  · rintro ⟨m, ⟨numeral, hm⟩, rfl⟩
    rw [UInt16.toNat_ofNat_of_lt' hm]
    exact numeral
  · intro numeral
    exact ⟨n.toNat, ⟨numeral, n.toNat_lt⟩, UInt16.ofNat_toNat⟩

end LogRelay.Text
