import LogRelay.Proofs.Binary64.Fields

/-!
# Binary32 numbers among binary64 numbers

A finite binary32 number is a whole multiple of `2 ^ (-149)`, and every one of them is a binary64
number as well. `Widens` says by the fields of the two words when a binary64 number is the number
that a binary32 word stands for. There is exactly one, the one that `ofBinary32` computes.
-/

namespace LogRelay.Binary64

/-! ## Fields of binary32 words -/

/-- The sign bit of a binary32 word. -/
def isNegative32 (word : UInt32) : Bool :=
  2 ^ 31 ≤ word.toNat

/-- The eight exponent bits of a binary32 word. -/
def exponentBits32 (word : UInt32) : Nat :=
  word.toNat / 2 ^ 23 % 2 ^ 8

/-- The twenty-three fraction bits of a binary32 word. -/
def fractionBits32 (word : UInt32) : Nat :=
  word.toNat % 2 ^ 23

/-- The magnitude of a finite binary32 word in multiples of `2 ^ (-149)`. -/
def units32 (word : UInt32) : Nat :=
  if exponentBits32 word = 0 then fractionBits32 word
  else (2 ^ 23 + fractionBits32 word) * 2 ^ (exponentBits32 word - 1)

/-- How many binary64 units make up one binary32 unit. -/
def unitsPerUnit32 : Nat :=
  2 ^ 925

/-- The binary64 number is the one that the binary32 word stands for: it has the same sign, and it
is the same finite number, or an infinity as well, or the quiet form of the same NaN. -/
structure Widens (x : Binary64) (word : UInt32) : Prop where
  /-- The sign is kept, also that of a zero. -/
  sign : x.isNegative = isNegative32 word
  /-- A finite number is kept. -/
  finite : exponentBits32 word ≠ 255 → x.isFinite ∧ x.units = units32 word * unitsPerUnit32
  /-- An infinity is kept, and a NaN keeps its leading fraction bits and is quiet. -/
  special : exponentBits32 word = 255 → x.exponentBits = 2047 ∧
    x.fractionBits = if fractionBits32 word = 0 then 0 else 2 ^ 51 ||| fractionBits32 word * 2 ^ 29

/-! ## Widening -/

theorem two_pow_mul_two_pow {m n k : Nat} (h : m + n = k + 925) :
    2 ^ m * 2 ^ n = 2 ^ k * unitsPerUnit32 :=
  calc
    2 ^ m * 2 ^ n = 2 ^ (m + n) := (Nat.pow_add 2 m n).symm
    _ = 2 ^ (k + 925) := by rw [h]
    _ = 2 ^ k * unitsPerUnit32 := by rw [Nat.pow_add, unitsPerUnit32]

theorem exponentBits32_lt (word : UInt32) : exponentBits32 word < 2 ^ 8 :=
  Nat.mod_lt _ (by decide)

theorem fractionBits32_lt (word : UInt32) : fractionBits32 word < 2 ^ 23 :=
  Nat.mod_lt _ (by decide)

theorem ofBinary32_of_special {word : UInt32} (hexponent : exponentBits32 word = 255) :
    ofBinary32 word = ofFields (isNegative32 word) (2047 * 2 ^ 52 +
      if fractionBits32 word = 0 then 0 else 2 ^ 51 ||| fractionBits32 word * 2 ^ 29) :=
  if_pos hexponent

theorem ofBinary32_of_normal {word : UInt32} (hpos : exponentBits32 word ≠ 0)
    (hfinite : exponentBits32 word ≠ 255) :
    ofBinary32 word = ofFields (isNegative32 word)
      ((exponentBits32 word + 896) * 2 ^ 52 + fractionBits32 word * 2 ^ 29) :=
  (if_neg hfinite).trans (if_neg hpos)

theorem ofBinary32_of_zero {word : UInt32} (hexponent : exponentBits32 word = 0)
    (hfraction : fractionBits32 word = 0) :
    ofBinary32 word = ofFields (isNegative32 word) (0 * 2 ^ 52 + 0) :=
  (if_neg (hexponent ▸ by decide : ¬exponentBits32 word = 255)).trans
    ((if_pos hexponent).trans (if_pos hfraction))

theorem ofBinary32_of_subnormal {word : UInt32} (hexponent : exponentBits32 word = 0)
    (hfraction : fractionBits32 word ≠ 0) :
    ofBinary32 word = ofFields (isNegative32 word)
      (((fractionBits32 word).log2 + 874) * 2 ^ 52 +
        (fractionBits32 word * 2 ^ (52 - (fractionBits32 word).log2) - 2 ^ 52)) :=
  (if_neg (hexponent ▸ by decide : ¬exponentBits32 word = 255)).trans
    ((if_pos hexponent).trans (if_neg hfraction))

/-- Any number with the fields of a finite binary32 number widens it. -/
theorem widens_ofFields {word : UInt32} {exponent fraction : Nat} (hexponent : exponent < 2047)
    (hfraction : fraction < 2 ^ 52)
    (hunits : (if exponent = 0 then fraction else (2 ^ 52 + fraction) * 2 ^ (exponent - 1)) =
      units32 word * unitsPerUnit32) (hfinite : exponentBits32 word ≠ 255) :
    (ofFields (isNegative32 word) (exponent * 2 ^ 52 + fraction)).Widens word := by
  have hbound : exponent < 2 ^ 11 := by omega
  refine ⟨isNegative_ofFields hbound hfraction, fun _ => ⟨?_, ?_⟩, fun h => absurd h hfinite⟩
  · rw [isFinite, exponentBits_ofFields hbound hfraction]
    exact bne_iff_ne.mpr hexponent.ne
  · rw [units, ulp, exponentBits_ofFields hbound hfraction, fractionBits_ofFields hbound hfraction]
    exact hunits

theorem widens_ofBinary32 (word : UInt32) : (ofBinary32 word).Widens word := by
  have hexponent := exponentBits32_lt word
  have hfraction := fractionBits32_lt word
  by_cases hspecial : exponentBits32 word = 255
  · rw [ofBinary32_of_special hspecial]
    have hbits : (if fractionBits32 word = 0 then 0
        else 2 ^ 51 ||| fractionBits32 word * 2 ^ 29) < 2 ^ 52 := by
      split
      · decide
      · exact Nat.or_lt_two_pow (by decide) (by omega)
    exact ⟨isNegative_ofFields (by decide) hbits, fun h => absurd hspecial h,
      fun _ => ⟨exponentBits_ofFields (by decide) hbits, fractionBits_ofFields (by decide) hbits⟩⟩
  by_cases hzero : exponentBits32 word = 0
  · by_cases hempty : fractionBits32 word = 0
    · rw [ofBinary32_of_zero hzero hempty]
      exact widens_ofFields (by decide) (by decide)
        (by rw [if_pos rfl, units32, if_pos hzero, hempty, Nat.zero_mul]) hspecial
    · rw [ofBinary32_of_subnormal hzero hempty]
      have hlog : (fractionBits32 word).log2 < 23 := (Nat.log2_lt hempty).mpr hfraction
      obtain ⟨hlow, hhigh⟩ := shifted_bounds hempty (by omega)
      refine widens_ofFields (by omega) (by omega) ?_ hspecial
      have hunit : 2 ^ (52 - (fractionBits32 word).log2) *
          2 ^ ((fractionBits32 word).log2 + 874 - 1) = 2 ^ 0 * unitsPerUnit32 :=
        two_pow_mul_two_pow (by omega)
      rw [if_neg (by omega), units32, if_pos hzero, Nat.add_sub_cancel' hlow, Nat.mul_assoc,
        hunit, Nat.pow_zero, Nat.one_mul]
  · rw [ofBinary32_of_normal hzero hspecial]
    refine widens_ofFields (by omega) (by omega) ?_ hspecial
    rw [if_neg (by omega), units32, if_neg hzero]
    have hunit : 2 ^ 29 * 2 ^ (exponentBits32 word + 896 - 1) =
        2 ^ (exponentBits32 word - 1) * unitsPerUnit32 :=
      two_pow_mul_two_pow (by omega)
    calc
      (2 ^ 52 + fractionBits32 word * 2 ^ 29) * 2 ^ (exponentBits32 word + 896 - 1)
          = (2 ^ 23 + fractionBits32 word) * (2 ^ 29 * 2 ^ (exponentBits32 word + 896 - 1)) := by
        ring
      _ = (2 ^ 23 + fractionBits32 word) * 2 ^ (exponentBits32 word - 1) * unitsPerUnit32 := by
        rw [hunit, Nat.mul_assoc]

/-- The number that a binary32 word stands for is the one that is computed. -/
theorem widens_iff {word : UInt32} {x : Binary64} : x.Widens word ↔ x = ofBinary32 word := by
  refine ⟨fun h => ?_, fun h => h ▸ widens_ofBinary32 word⟩
  have hcomputed := widens_ofBinary32 word
  have hsign : x.isNegative = (ofBinary32 word).isNegative := h.sign.trans hcomputed.sign.symm
  by_cases hspecial : exponentBits32 word = 255
  · have hx := h.special hspecial
    have hy := hcomputed.special hspecial
    exact ext_fields hsign (hx.1.trans hy.1.symm) (hx.2.trans hy.2.symm)
  · exact ext_units hsign ((h.finite hspecial).2.trans (hcomputed.finite hspecial).2.symm)

end LogRelay.Binary64
