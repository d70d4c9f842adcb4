import LogRelay.Proofs.MessagePack.Acceptance
import LogRelay.Proofs.MessagePack.Locality

/-!
# Messages delimit themselves

A message that is one whole value can neither go on nor stop earlier: with bytes behind it those
bytes are reported, whatever the value means, and without its last bytes it is cut off. And what
cannot be read for another reason than missing bytes cannot be mended by more of them.
-/

namespace LogRelay.Envelope

open MessagePack (read)

variable {p q s : List UInt8} {v : Value}

/-! ## Whole values -/

/-- What was read stood in front as a whole value. -/
theorem exists_whole_of_read (h : read p = .ok (v, s)) : ∃ q, p = q ++ s ∧ read q = .ok (v, []) := by
  obtain ⟨encoding, rfl, hencodes, hnesting⟩ := MessagePack.read_eq_ok_iff.mp h
  refine ⟨encoding, rfl, MessagePack.read_eq_ok_iff.mpr ⟨encoding, ?_, hencodes, hnesting⟩⟩
  exact (List.append_nil _).symm

theorem read_append (h : read q = .ok (v, [])) (s : List UInt8) : read (q ++ s) = .ok (v, s) :=
  MessagePack.isLocal_read.ok h s

theorem ne_nil_of_read (h : read p = .ok (v, s)) : p ≠ [] := by
  rintro rfl
  cases h

/-- Only the bytes behind a whole value are reported as left over. -/
theorem decode_eq_trailingBytes_iff {count : Nat} :
    decode p = .error (.trailingBytes count) ↔
      ∃ q s v, p = q ++ s ∧ read q = .ok (v, []) ∧ s ≠ [] ∧ s.length = count := by
  constructor
  · intro h
    unfold decode at h
    split at h
    · cases h
    · split at h
      · cases h
      · next v s hread =>
        split at h
        · exact absurd h (ofValue_ne_trailingBytes v count)
        · next hrest =>
          obtain ⟨q, rfl, hwhole⟩ := exists_whole_of_read hread
          cases h
          exact ⟨q, s, v, rfl, hwhole, fun hnil => hrest (List.isEmpty_iff.mpr hnil), rfl⟩
  · rintro ⟨q, s, v, rfl, hwhole, hs, rfl⟩
    have hsentinel : q ++ s ≠ LogRelay.sentinel := by
      intro heq
      rcases List.append_eq_singleton_iff.mp heq with ⟨hq, -⟩ | ⟨-, hnil⟩
      · exact ne_nil_of_read hwhole hq
      · exact hs hnil
    rw [decode, if_neg hsentinel, read_append hwhole]
    exact if_neg fun hnil => hs (List.isEmpty_iff.mp hnil)

/-- A message is one whole value unless something is reported about its bytes. -/
theorem exists_read_eq_iff :
    (∃ v, read p = .ok (v, [])) ↔
      (∀ cause, decode p ≠ .error (.undecodable cause)) ∧
        ∀ count, decode p ≠ .error (.trailingBytes count) := by
  constructor
  · rintro ⟨v, hread⟩
    refine ⟨fun cause h => ?_, fun count h => ?_⟩
    · cases hread.symm.trans (undecodable_iff.mp h)
    · obtain ⟨q, s, w, rfl, hwhole, hs, -⟩ := decode_eq_trailingBytes_iff.mp h
      cases hread.symm.trans (read_append hwhole s)
      exact hs rfl
  · rintro ⟨hreadable, hexact⟩
    cases hread : read p with
    | error cause => exact absurd (undecodable_iff.mpr hread) (hreadable cause)
    | ok found =>
        obtain ⟨v, s⟩ := found
        refine ⟨v, ?_⟩
        by_contra hne
        obtain ⟨q, rfl, hwhole⟩ := exists_whole_of_read hread
        refine hexact s.length (decode_eq_trailingBytes_iff.mpr ⟨q, s, v, rfl, hwhole, ?_, rfl⟩)
        rintro rfl
        exact hne rfl

/-! ## Messages that are cut off -/

/-- A whole value without its last bytes is cut off. -/
theorem exists_cut_of_prefix (h : read p = .ok (v, [])) (hq : q <+: p) (hne : q ≠ p) :
    ∃ cause, cause.isCut = true ∧ read q = .error cause := by
  obtain ⟨s, rfl⟩ := hq
  cases hread : read q with
  | ok found =>
      obtain ⟨w, rest⟩ := found
      have hlonger : read (q ++ s) = .ok (w, rest ++ s) := MessagePack.isLocal_read.ok hread s
      have hrest : rest ++ s = [] := congrArg Prod.snd (Except.ok.inj (hlonger.symm.trans h))
      rw [(List.append_eq_nil_iff.mp hrest).2, List.append_nil] at hne
      exact absurd rfl hne
  | error cause =>
      refine ⟨cause, ?_, rfl⟩
      by_contra hcut
      have hlonger : read (q ++ s) = .error cause :=
        MessagePack.isLocal_read.error hread (Bool.eq_false_of_not_eq_true hcut) s
      cases hlonger.symm.trans h

/-- Messages delimit themselves. A message about whose bytes nothing is reported, be it a record,
the sentinel or refused for what it says, is reported as followed by whatever is put behind it, and
as cut off when bytes at its end are missing. A message that cannot be read although no bytes are
missing is reported alike whatever is put behind it. -/
theorem decode_self_delimiting (p : List UInt8) :
    ((∀ cause, decode p ≠ .error (.undecodable cause)) →
      (∀ count, decode p ≠ .error (.trailingBytes count)) →
        (∀ s, s ≠ [] → decode (p ++ s) = .error (.trailingBytes s.length)) ∧
          ∀ q, q <+: p → q ≠ p →
            ∃ cause, cause.isCut = true ∧ decode q = .error (.undecodable cause)) ∧
      ∀ cause, decode p = .error (.undecodable cause) → cause.isCut = false →
        ∀ s, decode (p ++ s) = .error (.undecodable cause) := by
  constructor
  · intro hreadable hexact
    obtain ⟨v, hread⟩ := exists_read_eq_iff.mpr ⟨hreadable, hexact⟩
    constructor
    · intro s hs
      exact decode_eq_trailingBytes_iff.mpr ⟨p, s, v, rfl, hread, hs, rfl⟩
    · intro q hq hne
      obtain ⟨cause, hcut, hq⟩ := exists_cut_of_prefix hread hq hne
      exact ⟨cause, hcut, undecodable_iff.mpr hq⟩
  · intro cause h hcut s
    have hread := undecodable_iff.mp h
    exact undecodable_iff.mpr (MessagePack.isLocal_read.error hread hcut s)

set_option maxRecDepth 20000 in
/-- A record whose line number is a text is refused for that, but not with a byte behind it nor
without its last byte. Behind the byte that has no meaning it is not looked at. -/
theorem decode_self_delimiting_mistyped :
    let p : List UInt8 := [0x81, 0xa6, 0x6c, 0x69, 0x6e, 0x65, 0x6e, 0x6f, 0xa1, 0x78]
    decode p = .error (.fieldType .lineno .integer .text) ∧
      decode (p ++ [0xc0]) = .error (.trailingBytes 1) ∧
      (∃ cause, cause.isCut = true ∧ decode p.dropLast = .error (.undecodable cause)) ∧
      decode ([0xc1] ++ p) = .error (.undecodable .reserved) := by
  intro p
  have hmistyped : decode p = .error (.fieldType .lineno .integer .text) := by rfl
  have hwhole := (decode_self_delimiting p).1
    (fun cause h => nomatch hmistyped.symm.trans h) (fun count h => nomatch hmistyped.symm.trans h)
  refine ⟨hmistyped, hwhole.1 [0xc0] (by decide), hwhole.2 p.dropLast ?_ (by decide), ?_⟩
  · exact p.dropLast_prefix
  · exact (decode_self_delimiting [0xc1]).2 .reserved rfl rfl p

end LogRelay.Envelope
