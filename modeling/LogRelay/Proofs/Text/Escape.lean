import LogRelay.Text.Escape
import Mathlib.Tactic.SplitIfs

/-!
# Bytes in escaped form

How a byte is shown in printable ASCII, told for each kind of byte: a tab and the ends of a line by
a letter, quotes and the backslash behind a backslash, other printable bytes as they are, and the
rest by two hexadecimal digits.
-/

namespace LogRelay.Text

/-- The text shows the byte in printable ASCII. -/
inductive Escapes : UInt8 → List Char → Prop
  | tab : Escapes 0x09 "\\t".toList
  | carriageReturn : Escapes 0x0d "\\r".toList
  | lineFeed : Escapes 0x0a "\\n".toList
  | singleQuote : Escapes 0x27 "\\\x27".toList
  | doubleQuote : Escapes 0x22 "\\\x22".toList
  | backslash : Escapes 0x5c "\\\\".toList
  | plain {b : UInt8} {c : Char} (code : c.toNat = b.toNat) (printable : 0x20 ≤ b ∧ b ≤ 0x7e)
      (unmarked : b ∉ [0x27, 0x22, 0x5c]) : Escapes b [c]
  | hexadecimal {b : UInt8} (unprintable : b < 0x20 ∨ 0x7e < b) (unnamed : b ∉ [0x09, 0x0d, 0x0a]) :
      Escapes b ['\\', 'x', (b.toNat / 16).digitChar, (b.toNat % 16).digitChar]

variable {b : UInt8} {text : List Char}

theorem hexDigit_eq_digitChar {n : Nat} (h : n < 16) : hexDigit n = n.digitChar := by
  have hall : ∀ n : Fin 16, hexDigit n = (n : Nat).digitChar := by decide
  exact hall ⟨n, h⟩

theorem hexPair_eq (b : UInt8) :
    hexPair b = [(b.toNat / 16).digitChar, (b.toNat % 16).digitChar] := by
  have hbound := b.toNat_lt
  rw [hexPair, hexDigit_eq_digitChar (by omega), hexDigit_eq_digitChar (by omega)]

theorem toNat_ofNat_toNat (b : UInt8) : (Char.ofNat b.toNat).toNat = b.toNat := by
  have hvalid : b.toNat.isValidChar := .inl (Nat.lt_trans b.toNat_lt (by decide))
  rw [Char.ofNat, dif_pos hvalid]
  rfl

theorem escapes_escapeByte (b : UInt8) : Escapes b (escapeByte b) := by
  unfold escapeByte
  split_ifs with htab hreturn hfeed hsingle hdouble hbackslash hprintable
  · exact htab ▸ .tab
  · exact hreturn ▸ .carriageReturn
  · exact hfeed ▸ .lineFeed
  · exact hsingle ▸ .singleQuote
  · exact hdouble ▸ .doubleQuote
  · exact hbackslash ▸ .backslash
  · simp only [Bool.and_eq_true, decide_eq_true_eq] at hprintable
    exact .plain (toNat_ofNat_toNat b) hprintable (by simp [hsingle, hdouble, hbackslash])
  · simp only [Bool.and_eq_true, decide_eq_true_eq, Classical.not_and_iff_not_or_not,
      UInt8.not_le] at hprintable
    rw [hexPair_eq]
    exact .hexadecimal hprintable (by simp [htab, hreturn, hfeed])

theorem escapeByte_of_printable (printable : 0x20 ≤ b ∧ b ≤ 0x7e)
    (unmarked : b ∉ [0x27, 0x22, 0x5c]) : escapeByte b = [Char.ofNat b.toNat] := by
  have hnamed : b ∉ [0x09, 0x0d, 0x0a] := by
    intro hb
    simp only [List.mem_cons, List.not_mem_nil, or_false] at hb
    rcases hb with rfl | rfl | rfl <;> exact absurd printable.1 (by decide)
  simp only [List.mem_cons, List.not_mem_nil, or_false, not_or] at hnamed unmarked
  simp [escapeByte, hnamed, unmarked, printable]

theorem escapeByte_of_unprintable (unprintable : b < 0x20 ∨ 0x7e < b)
    (unnamed : b ∉ [0x09, 0x0d, 0x0a]) :
    escapeByte b = ['\\', 'x', (b.toNat / 16).digitChar, (b.toNat % 16).digitChar] := by
  have hmarked : b ∉ [0x27, 0x22, 0x5c] := by
    intro hb
    simp only [List.mem_cons, List.not_mem_nil, or_false] at hb
    rcases hb with rfl | rfl | rfl <;> exact absurd unprintable (by decide)
  simp only [List.mem_cons, List.not_mem_nil, or_false, not_or] at hmarked unnamed
  rw [← UInt8.not_le, ← UInt8.not_le, ← Classical.not_and_iff_not_or_not] at unprintable
  simp [escapeByte, unnamed, hmarked, unprintable, hexPair_eq]

/-- A byte is escaped in one way. -/
theorem escapes_iff : Escapes b text ↔ escapeByte b = text := by
  constructor
  · intro h
    cases h with
    | plain code printable unmarked =>
        rw [escapeByte_of_printable printable unmarked, ← code, Char.ofNat_toNat]
    | hexadecimal unprintable unnamed => exact escapeByte_of_unprintable unprintable unnamed
    | _ => rfl
  · rintro rfl
    exact escapes_escapeByte b

end LogRelay.Text
