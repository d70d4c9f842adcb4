import LogRelay.Binary64.Basic
import Mathlib.Tactic.Ring

/-!
# The fields of binary64 numbers

Sign, exponent and fraction determine a number, and so do sign and magnitude. The magnitude grows
with the exponent. A number that is composed of fields has these fields, and a significand whose
leading bit stands above the fraction may carry into the exponent.
-/

namespace LogRelay.Binary64

theorem ext_fields {x y : Binary64} (hsign : x.isNegative = y.isNegative)
    (hexponent : x.exponentBits = y.exponentBits) (hfraction : x.fractionBits = y.fractionBits) :
    x = y := by
  obtain ⟨a⟩ := x
  obtain ⟨b⟩ := y
  have ha : a.toNat < 2 ^ 64 := a.toNat_lt
  have hb : b.toNat < 2 ^ 64 := b.toNat_lt
  simp only [isNegative, exponentBits, fractionBits, decide_eq_decide] at hsign hexponent hfraction
  have hbits : a.toNat = b.toNat := by omega
  rw [UInt64.toNat_inj.mp hbits]

theorem fractionBits_lt (x : Binary64) : x.fractionBits < 2 ^ 52 :=
  Nat.mod_lt _ (by decide)

theorem units_of_exponentBits_pos {x : Binary64} (hpos : 0 < x.exponentBits) :
    x.units = (2 ^ 52 + x.fractionBits) * 2 ^ (x.exponentBits - 1) := by
  rw [units, if_neg hpos.ne', ulp]

theorem units_lt (x : Binary64) : x.units < 2 ^ 52 * 2 ^ x.exponentBits := by
  have hfraction := x.fractionBits_lt
  rcases Nat.eq_zero_or_pos x.exponentBits with hzero | hpos
  · rw [units, if_pos hzero, hzero]
    omega
  · rw [units_of_exponentBits_pos hpos]
    calc
      (2 ^ 52 + x.fractionBits) * 2 ^ (x.exponentBits - 1)
          < (2 ^ 52 + 2 ^ 52) * 2 ^ (x.exponentBits - 1) :=
        Nat.mul_lt_mul_of_pos_right (by omega) (Nat.two_pow_pos _)
      _ = 2 ^ 52 * 2 ^ (x.exponentBits - 1 + 1) := by ring
      _ = 2 ^ 52 * 2 ^ x.exponentBits := by rw [Nat.sub_add_cancel hpos]

/-- A larger exponent means a larger magnitude. -/
theorem units_lt_units {x y : Binary64} (h : x.exponentBits < y.exponentBits) :
    x.units < y.units := by
  have hpos : 0 < y.exponentBits := Nat.zero_lt_of_lt h
  calc
    x.units < 2 ^ 52 * 2 ^ x.exponentBits := x.units_lt
    _ ≤ 2 ^ 52 * 2 ^ (y.exponentBits - 1) :=
      Nat.mul_le_mul_left _ (Nat.pow_le_pow_right (by decide) (Nat.le_sub_one_of_lt h))
    _ ≤ (2 ^ 52 + y.fractionBits) * 2 ^ (y.exponentBits - 1) :=
      Nat.mul_le_mul_right _ (Nat.le_add_right _ _)
    _ = y.units := (units_of_exponentBits_pos hpos).symm

/-- Sign and magnitude determine a number, whether it is finite or not. -/
theorem ext_units {x y : Binary64} (hsign : x.isNegative = y.isNegative)
    (hunits : x.units = y.units) : x = y := by
  have hexponent : x.exponentBits = y.exponentBits := by
    rcases Nat.lt_trichotomy x.exponentBits y.exponentBits with h | h | h
    · exact absurd hunits (units_lt_units h).ne
    · exact h
    · exact absurd hunits (units_lt_units h).ne'
  refine ext_fields hsign hexponent ?_
  rcases Nat.eq_zero_or_pos x.exponentBits with hzero | hpos
  · rwa [units, units, if_pos hzero, if_pos (hexponent ▸ hzero)] at hunits
  · rw [units_of_exponentBits_pos hpos, units_of_exponentBits_pos (hexponent ▸ hpos),
      ← hexponent] at hunits
    exact Nat.add_left_cancel (Nat.eq_of_mul_eq_mul_right (Nat.two_pow_pos _) hunits)

/-! ## The fields of composed numbers -/

section ofFields

variable {negative : Bool} {exponent fraction : Nat}

theorem toNat_ofFields {magnitude : Nat} (hmagnitude : magnitude < 2 ^ 63) :
    (ofFields negative magnitude).bits.toNat = (if negative then 2 ^ 63 else 0) + magnitude := by
  have hbound : (if negative then 2 ^ 63 else 0) + magnitude < 2 ^ 64 := by
    split <;> omega
  exact UInt64.toNat_ofNat_of_lt' hbound

theorem isNegative_ofFields (hexponent : exponent < 2 ^ 11) (hfraction : fraction < 2 ^ 52) :
    (ofFields negative (exponent * 2 ^ 52 + fraction)).isNegative = negative := by
  rw [isNegative, toNat_ofFields (by omega)]
  cases negative with
  | false => exact decide_eq_false (by rw [if_neg Bool.false_ne_true]; omega)
  | true => exact decide_eq_true (by rw [if_pos rfl]; omega)

theorem exponentBits_ofFields (hexponent : exponent < 2 ^ 11) (hfraction : fraction < 2 ^ 52) :
    (ofFields negative (exponent * 2 ^ 52 + fraction)).exponentBits = exponent := by
  rw [exponentBits, toNat_ofFields (by omega)]
  split <;> omega

theorem fractionBits_ofFields (hexponent : exponent < 2 ^ 11) (hfraction : fraction < 2 ^ 52) :
    (ofFields negative (exponent * 2 ^ 52 + fraction)).fractionBits = fraction := by
  rw [fractionBits, toNat_ofFields (by omega)]
  split <;> omega

end ofFields

/-! ## Significands -/

/-- Shifted until its leading bit is the one above the fraction, a number is a significand. -/
theorem shifted_bounds {n : Nat} (hnonzero : n ≠ 0) (hlog : n.log2 ≤ 52) :
    2 ^ 52 ≤ n * 2 ^ (52 - n.log2) ∧ n * 2 ^ (52 - n.log2) < 2 ^ 52 + 2 ^ 52 := by
  have hscale : 2 ^ n.log2 * 2 ^ (52 - n.log2) = 2 ^ 52 := by
    rw [← Nat.pow_add, Nat.add_sub_cancel' hlog]
  constructor
  · rw [← hscale]
    exact Nat.mul_le_mul_right _ (Nat.log2_self_le hnonzero)
  · calc
      n * 2 ^ (52 - n.log2) < 2 ^ (n.log2 + 1) * 2 ^ (52 - n.log2) :=
        Nat.mul_lt_mul_of_pos_right Nat.lt_log2_self (Nat.two_pow_pos _)
      _ = 2 ^ 52 + 2 ^ 52 := by rw [Nat.pow_succ, Nat.mul_right_comm, hscale, Nat.mul_two]

end LogRelay.Binary64
