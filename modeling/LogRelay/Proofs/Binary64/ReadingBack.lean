import LogRelay.Binary64.Shortest
import LogRelay.Proofs.Binary64.Rounding
import Mathlib.Algebra.Order.Ring.Abs
import Mathlib.Algebra.Order.Field.Rat
import Mathlib.Tactic.Linarith
import Mathlib.Tactic.Positivity
import Mathlib.Tactic.NormNum
import Mathlib.Tactic.FieldSimp

/-!
# Reading back

A quotient reads back as the binary64 number that is nearest to it. That is told by distances to all
numbers, and it comes down to the two neighbours of the number: the quotients that read back as it
lie between the two midpoints, and the midpoints themselves read back as it exactly when its last
fraction bit is zero.
-/

namespace LogRelay.Binary64

/-- The magnitude of a number. An infinite one stands where the next finite one would be. -/
def magnitude (x : Binary64) : ℚ :=
  x.units / unitsPerOne

/-- No number is nearer in magnitude to the quotient, and of two nearest ones it is the one whose
last fraction bit is zero. -/
structure ReadsBack (x : Binary64) (q : ℚ) : Prop where
  nearest : ∀ y : Binary64, y.isNaN = false → |q - x.magnitude| ≤ |q - y.magnitude|
  even : ∀ y : Binary64, y.isNaN = false → y.magnitude ≠ x.magnitude →
    |q - y.magnitude| = |q - x.magnitude| → x.fractionBits % 2 = 0

variable {x y : Binary64} {q r s m n : ℚ} {num den : Nat}

/-! ## Distances -/

theorem sq_sub_sq_sub (q m n : ℚ) :
    (q - n) ^ 2 - (q - m) ^ 2 = (n - m) * (m + n - 2 * q) := by
  ring

theorem abs_sub_le_iff_of_lt (h : m < n) : |q - m| ≤ |q - n| ↔ 2 * q ≤ m + n := by
  rw [← sq_le_sq, ← sub_nonneg, sq_sub_sq_sub, mul_nonneg_iff_of_pos_left (sub_pos.mpr h),
    sub_nonneg]

theorem abs_sub_le_iff_of_gt (h : n < m) : |q - m| ≤ |q - n| ↔ m + n ≤ 2 * q := by
  rw [← sq_le_sq, ← sub_nonneg, sq_sub_sq_sub, ← neg_mul_neg,
    mul_nonneg_iff_of_pos_left (neg_pos.mpr (sub_neg.mpr h)), neg_nonneg, sub_nonpos]

theorem abs_sub_eq_iff_of_ne (h : n ≠ m) : |q - n| = |q - m| ↔ 2 * q = m + n := by
  rw [← sq_eq_sq_iff_abs_eq_abs, ← sub_eq_zero, sq_sub_sq_sub, mul_eq_zero,
    or_iff_right (sub_ne_zero.mpr h), sub_eq_zero, eq_comm]

/-! ## Neighbours -/

/-- Twice the distance to the number below, in units. Below a power of two the numbers are twice as
dense. -/
def gapBelow (x : Binary64) : Nat :=
  if x.fractionBits = 0 && 1 < x.exponentBits then x.ulp else 2 * x.ulp

theorem ulp_pos (x : Binary64) : 0 < x.ulp :=
  Nat.two_pow_pos _

theorem exponentBits_lt (h : x.isFinite = true) : x.exponentBits < 2047 := by
  have hbound : x.exponentBits < 2 ^ 11 := Nat.mod_lt _ (by decide)
  rw [isFinite, bne_iff_ne] at h
  omega

theorem exists_fields {e f : Nat} (he : e < 2 ^ 11) (hf : f < 2 ^ 52) :
    ∃ y : Binary64, y.exponentBits = e ∧ y.fractionBits = f :=
  ⟨ofFields false (e * 2 ^ 52 + f), exponentBits_ofFields he hf, fractionBits_ofFields he hf⟩

theorem ulp_of_exponentBits_eq {e : Nat} (h : x.exponentBits = e + 1) : x.ulp = 2 ^ e := by
  rw [ulp, h, Nat.add_sub_cancel]

theorem units_of_exponentBits_eq {e : Nat} (h : x.exponentBits = e + 1) :
    x.units = (2 ^ 52 + x.fractionBits) * 2 ^ e := by
  rw [units_of_exponentBits_pos (h ▸ Nat.succ_pos e), h, Nat.add_sub_cancel]

theorem units_of_exponentBits_eq_zero (h : x.exponentBits = 0) : x.units = x.fractionBits := by
  rw [units, if_pos h]

theorem ulp_of_exponentBits_eq_zero (h : x.exponentBits = 0) : x.ulp = 1 := by
  rw [ulp, h]

theorem exists_above (hfinite : x.isFinite = true) :
    ∃ y : Binary64, y.isNaN = false ∧ y.units = x.units + x.ulp := by
  have hexponent := exponentBits_lt hfinite
  have hfraction := x.fractionBits_lt
  rcases Nat.lt_or_ge (x.fractionBits + 1) (2 ^ 52) with hroom | hcarry
  · obtain ⟨y, he, hf⟩ := exists_fields (e := x.exponentBits) (by omega) hroom
    refine ⟨y, by simp [isNaN, he, hexponent.ne], ?_⟩
    cases hx : x.exponentBits with
    | zero =>
        rw [units_of_exponentBits_eq_zero (he.trans hx), units_of_exponentBits_eq_zero hx,
          ulp_of_exponentBits_eq_zero hx, hf]
    | succ e =>
        rw [units_of_exponentBits_eq (he.trans hx), units_of_exponentBits_eq hx,
          ulp_of_exponentBits_eq hx, hf]
        ring
  · obtain ⟨y, he, hf⟩ := exists_fields (e := x.exponentBits + 1) (f := 0) (by omega) (by decide)
    have hall : x.fractionBits = 2 ^ 52 - 1 := by omega
    refine ⟨y, by simp [isNaN, hf], ?_⟩
    rw [units_of_exponentBits_eq he, hf]
    cases hx : x.exponentBits with
    | zero =>
        rw [units_of_exponentBits_eq_zero hx, ulp_of_exponentBits_eq_zero hx, hall]
    | succ e =>
        rw [units_of_exponentBits_eq hx, ulp_of_exponentBits_eq hx, hall, pow_succ]
        ring

theorem exists_below (hfinite : x.isFinite = true) (hpos : 0 < x.units) :
    ∃ y : Binary64, y.isNaN = false ∧ 2 * y.units + x.gapBelow = 2 * x.units := by
  have hexponent := exponentBits_lt hfinite
  have hfraction := x.fractionBits_lt
  rcases Nat.eq_zero_or_pos x.fractionBits with hzero | hsome
  · obtain ⟨e, hx⟩ : ∃ e, x.exponentBits = e + 1 := by
      refine Nat.exists_eq_succ_of_ne_zero fun hx => ?_
      rw [units_of_exponentBits_eq_zero hx] at hpos
      omega
    obtain ⟨y, he, hf⟩ := exists_fields (e := e) (f := 2 ^ 52 - 1) (by omega) (by decide)
    refine ⟨y, by simp [isNaN, he, show e ≠ 2047 by omega], ?_⟩
    rw [units_of_exponentBits_eq hx, gapBelow, ulp_of_exponentBits_eq hx, hzero, hx]
    cases e with
    | zero => simp [units_of_exponentBits_eq_zero he, hf]
    | succ e =>
        rw [units_of_exponentBits_eq he, hf, if_pos (by simp), pow_succ]
        ring
  · obtain ⟨y, he, hf⟩ := exists_fields (e := x.exponentBits) (f := x.fractionBits - 1) (by omega)
      (by omega)
    refine ⟨y, by simp [isNaN, he, hexponent.ne], ?_⟩
    obtain ⟨f, hfx⟩ := Nat.exists_eq_succ_of_ne_zero hsome.ne'
    rw [hfx, Nat.succ_sub_one] at hf
    rw [gapBelow, if_neg (by simp [hfx])]
    cases hx : x.exponentBits with
    | zero =>
        rw [units_of_exponentBits_eq_zero (he.trans hx), units_of_exponentBits_eq_zero hx,
          ulp_of_exponentBits_eq_zero hx, hf, hfx]
        rfl
    | succ e =>
        rw [units_of_exponentBits_eq (he.trans hx), units_of_exponentBits_eq hx,
          ulp_of_exponentBits_eq hx, hf, hfx, Nat.succ_eq_add_one]
        ring

/-- A larger number is larger by one unit in the last place at least. -/
theorem units_add_ulp_le (h : x.units < y.units) : x.units + x.ulp ≤ y.units := by
  cases hx : x.exponentBits with
  | zero =>
      rw [ulp_of_exponentBits_eq_zero hx]
      exact h
  | succ e =>
      rw [units_of_exponentBits_eq hx] at h ⊢
      rw [ulp_of_exponentBits_eq hx, ← Nat.succ_mul]
      rcases y.units_lt_or_exists_mul e with hlow | ⟨m, hm, -⟩
      · exact absurd (h.trans hlow) (Nat.not_lt.mpr (Nat.mul_le_mul_right _ (Nat.le_add_right _ _)))
      · rw [hm] at h ⊢
        exact Nat.mul_le_mul_right _ (Nat.lt_of_mul_lt_mul_right h)

theorem units_add_two_pow_le {k p : Nat} (hk : 2 ^ 52 < k) (h : y.units < k * 2 ^ p) :
    y.units + 2 ^ p ≤ k * 2 ^ p := by
  rcases y.units_lt_or_exists_mul p with hlow | ⟨m, hm, -⟩
  · calc
      y.units + 2 ^ p ≤ 2 ^ 52 * 2 ^ p + 2 ^ p := Nat.add_le_add_right hlow.le _
      _ = (2 ^ 52 + 1) * 2 ^ p := (Nat.succ_mul _ _).symm
      _ ≤ k * 2 ^ p := Nat.mul_le_mul_right _ hk
  · rw [hm] at h ⊢
    rw [← Nat.succ_mul]
    exact Nat.mul_le_mul_right _ (Nat.lt_of_mul_lt_mul_right h)

/-- A smaller number is smaller by the gap below at least. -/
theorem units_add_gapBelow_le (h : y.units < x.units) :
    2 * y.units + x.gapBelow ≤ 2 * x.units := by
  cases hx : x.exponentBits with
  | zero =>
      rw [gapBelow, if_neg (by simp [hx]), ulp_of_exponentBits_eq_zero hx]
      omega
  | succ e =>
      have hunits := units_of_exponentBits_eq hx
      have hulp := ulp_of_exponentBits_eq hx
      rcases Nat.eq_zero_or_pos x.fractionBits with hzero | hsome
      · cases e with
        | zero =>
            rw [gapBelow, if_neg (by simp [hx]), hulp]
            omega
        | succ e =>
            have hdense : x.units = 2 ^ 53 * 2 ^ e := by
              rw [hunits, hzero]
              ring
            have hstep := units_add_two_pow_le (by decide) (hdense ▸ h)
            rw [gapBelow, if_pos (by simp [hx, hzero]), hulp, hdense, pow_succ]
            omega
      · have hstep := units_add_two_pow_le (by omega) (hunits ▸ h)
        rw [gapBelow, if_neg (by simp [hsome.ne']), hulp, hunits]
        omega

/-! ## The interval around a number -/

/-- The midpoint of a number and the one below it. -/
def lowEnd (x : Binary64) : ℚ :=
  (x.units - x.gapBelow / 4) / unitsPerOne

/-- The midpoint of a number and the one above it. -/
def highEnd (x : Binary64) : ℚ :=
  (x.units + x.ulp / 2) / unitsPerOne

theorem unitsPerOne_pos_rat : (0 : ℚ) < unitsPerOne :=
  Nat.cast_pos.mpr unitsPerOne_pos

theorem magnitude_lt_magnitude_iff : x.magnitude < y.magnitude ↔ x.units < y.units := by
  rw [magnitude, magnitude, div_lt_div_iff_of_pos_right unitsPerOne_pos_rat, Nat.cast_lt]

theorem two_mul_highEnd_le (h : x.magnitude < y.magnitude) :
    2 * x.highEnd ≤ x.magnitude + y.magnitude := by
  have hunits : (x.units + x.ulp : ℚ) ≤ y.units := by
    exact_mod_cast units_add_ulp_le (magnitude_lt_magnitude_iff.mp h)
  rw [highEnd, magnitude, magnitude, ← add_div, ← mul_div_assoc,
    div_le_div_iff_of_pos_right unitsPerOne_pos_rat]
  linarith

theorem le_two_mul_lowEnd (h : y.magnitude < x.magnitude) :
    x.magnitude + y.magnitude ≤ 2 * x.lowEnd := by
  have hunits : (2 * y.units + x.gapBelow : ℚ) ≤ 2 * x.units := by
    exact_mod_cast units_add_gapBelow_le (magnitude_lt_magnitude_iff.mp h)
  rw [lowEnd, magnitude, magnitude, ← add_div, ← mul_div_assoc,
    div_le_div_iff_of_pos_right unitsPerOne_pos_rat]
  linarith

theorem exists_highEnd (hfinite : x.isFinite = true) :
    ∃ y : Binary64, y.isNaN = false ∧ x.magnitude < y.magnitude ∧
      x.magnitude + y.magnitude = 2 * x.highEnd := by
  obtain ⟨y, hy, hunits⟩ := exists_above hfinite
  refine ⟨y, hy, magnitude_lt_magnitude_iff.mpr ?_, ?_⟩
  · rw [hunits]
    exact Nat.lt_add_of_pos_right x.ulp_pos
  · rw [highEnd, magnitude, magnitude, hunits, ← add_div, ← mul_div_assoc]
    push_cast
    ring

theorem gapBelow_pos (x : Binary64) : 0 < x.gapBelow := by
  have hulp := x.ulp_pos
  rw [gapBelow]
  split_ifs <;> omega

theorem exists_lowEnd (hfinite : x.isFinite = true) (hpos : 0 < x.units) :
    ∃ y : Binary64, y.isNaN = false ∧ y.magnitude < x.magnitude ∧
      x.magnitude + y.magnitude = 2 * x.lowEnd := by
  obtain ⟨y, hy, hunits⟩ := exists_below hfinite hpos
  have hgap := x.gapBelow_pos
  refine ⟨y, hy, magnitude_lt_magnitude_iff.mpr (by omega), ?_⟩
  have hunits : (2 * y.units + x.gapBelow : ℚ) = 2 * x.units := by exact_mod_cast hunits
  rw [lowEnd, magnitude, magnitude, ← add_div, ← mul_div_assoc]
  congr 1
  linarith

/-- The quotients that read back as a number lie between the midpoints. -/
theorem readsBack_iff (hfinite : x.isFinite = true) (hpos : 0 < x.units) :
    x.ReadsBack q ↔ x.lowEnd ≤ q ∧ q ≤ x.highEnd ∧
      (q = x.lowEnd ∨ q = x.highEnd → x.fractionBits % 2 = 0) := by
  obtain ⟨above, habove, hgt, hhigh⟩ := exists_highEnd hfinite
  obtain ⟨below, hbelow, hlt, hlow⟩ := exists_lowEnd hfinite hpos
  constructor
  · rintro ⟨hnearest, heven⟩
    refine ⟨?_, ?_, ?_⟩
    · have hdist := (abs_sub_le_iff_of_gt hlt).mp (hnearest below hbelow)
      linarith
    · have hdist := (abs_sub_le_iff_of_lt hgt).mp (hnearest above habove)
      linarith
    · rintro (hend | hend)
      · exact heven below hbelow hlt.ne ((abs_sub_eq_iff_of_ne hlt.ne).mpr (by rw [hlow, hend]))
      · exact heven above habove hgt.ne' ((abs_sub_eq_iff_of_ne hgt.ne').mpr (by rw [hhigh, hend]))
  · rintro ⟨hmin, hmax, heven⟩
    constructor
    · intro y hy
      rcases lt_trichotomy y.magnitude x.magnitude with h | h | h
      · have hmid := le_two_mul_lowEnd h
        exact (abs_sub_le_iff_of_gt h).mpr (by linarith)
      · rw [h]
      · have hmid := two_mul_highEnd_le h
        exact (abs_sub_le_iff_of_lt h).mpr (by linarith)
    · intro y hy hne hdist
      have hmid := (abs_sub_eq_iff_of_ne hne).mp hdist
      refine heven ?_
      rcases lt_or_gt_of_ne hne with h | h
      · have := le_two_mul_lowEnd h
        exact .inl (by linarith)
      · have := two_mul_highEnd_le h
        exact .inr (by linarith)

theorem lowEnd_lt_magnitude (x : Binary64) : x.lowEnd < x.magnitude := by
  have hgap : (0 : ℚ) < x.gapBelow := Nat.cast_pos.mpr x.gapBelow_pos
  rw [lowEnd, magnitude, div_lt_div_iff_of_pos_right unitsPerOne_pos_rat]
  linarith

theorem magnitude_lt_highEnd (x : Binary64) : x.magnitude < x.highEnd := by
  have hulp : (0 : ℚ) < x.ulp := Nat.cast_pos.mpr x.ulp_pos
  rw [highEnd, magnitude, div_lt_div_iff_of_pos_right unitsPerOne_pos_rat]
  linarith

/-- What lies between a number and a quotient that reads back as it reads back as it, too. -/
theorem ReadsBack.of_le (hfinite : x.isFinite = true) (hpos : 0 < x.units) (h : x.ReadsBack q)
    (hq : q ≤ r) (hr : r ≤ x.magnitude) : x.ReadsBack r := by
  rw [readsBack_iff hfinite hpos] at h ⊢
  obtain ⟨hmin, hmax, heven⟩ := h
  have hhigh := x.magnitude_lt_highEnd
  refine ⟨hmin.trans hq, hr.trans hhigh.le, ?_⟩
  rintro (hend | hend)
  · exact heven (.inl (le_antisymm (hq.trans hend.le) hmin))
  · exact absurd hr (not_le.mpr (hend ▸ hhigh))

theorem ReadsBack.of_ge (hfinite : x.isFinite = true) (hpos : 0 < x.units) (h : x.ReadsBack q)
    (hq : r ≤ q) (hr : x.magnitude ≤ r) : x.ReadsBack r := by
  rw [readsBack_iff hfinite hpos] at h ⊢
  obtain ⟨hmin, hmax, heven⟩ := h
  have hlow := x.lowEnd_lt_magnitude
  refine ⟨hlow.le.trans hr, hq.trans hmax, ?_⟩
  rintro (hend | hend)
  · exact absurd hr (not_le.mpr (hend ▸ hlow))
  · exact heven (.inr (le_antisymm hmax (hend.symm.le.trans hq)))

theorem gapBelow_lt (hfinite : x.isFinite = true) (hpos : 0 < x.units) :
    x.gapBelow < 4 * x.units := by
  obtain ⟨y, -, hy⟩ := exists_below hfinite hpos
  omega

/-- Zero reads back as no positive number. -/
theorem not_readsBack_zero (hfinite : x.isFinite = true) (hpos : 0 < x.units) :
    ¬x.ReadsBack 0 := by
  have hgap : (x.gapBelow : ℚ) < 4 * x.units := by exact_mod_cast gapBelow_lt hfinite hpos
  have hlow : 0 < x.lowEnd := div_pos (by linarith) unitsPerOne_pos_rat
  intro h
  exact absurd ((readsBack_iff hfinite hpos).mp h).1 (not_le.mpr hlow)

/-- Where a fraction of units stands among the midpoints is a comparison of whole numbers. -/
theorem lowEnd_sub (num : Nat) (hgap : x.gapBelow ≤ 4 * x.units) (hden : 0 < den) :
    ((4 * num : Nat) : ℚ) - ((4 * x.units - x.gapBelow) * den : Nat) =
      4 * den * unitsPerOne * (num / (den * unitsPerOne) - x.lowEnd) := by
  have hden : (den : ℚ) ≠ 0 := Nat.cast_ne_zero.mpr hden.ne'
  have hone := unitsPerOne_pos_rat.ne'
  rw [lowEnd, Nat.cast_mul, Nat.cast_mul, Nat.cast_sub hgap]
  push_cast
  -- The count of units is not to be evaluated.
  generalize (unitsPerOne : ℚ) = one at hone ⊢
  field_simp

theorem highEnd_sub (x : Binary64) (num : Nat) (hden : 0 < den) :
    (((4 * x.units + 2 * x.ulp) * den : Nat) : ℚ) - (4 * num : Nat) =
      4 * den * unitsPerOne * (x.highEnd - num / (den * unitsPerOne)) := by
  have hden : (den : ℚ) ≠ 0 := Nat.cast_ne_zero.mpr hden.ne'
  have hone := unitsPerOne_pos_rat.ne'
  rw [highEnd]
  push_cast
  generalize (unitsPerOne : ℚ) = one at hone ⊢
  field_simp
  ring

theorem roundsTo_eq (x : Binary64) (num den : Nat) :
    x.roundsTo num den =
      if x.fractionBits % 2 = 0 then
        decide ((4 * x.units - x.gapBelow) * den ≤ 4 * num) &&
          decide (4 * num ≤ (4 * x.units + 2 * x.ulp) * den)
      else
        decide ((4 * x.units - x.gapBelow) * den < 4 * num) &&
          decide (4 * num < (4 * x.units + 2 * x.ulp) * den) :=
  rfl

/-- Whole numbers compare as the quotients that they are scaled from. -/
theorem cast_le_and_lt_iff {a b : Nat} {c : ℚ} (hc : 0 < c) (h : (b : ℚ) - a = c * (r - q)) :
    (a ≤ b ↔ q ≤ r) ∧ (a < b ↔ q < r) := by
  rw [← Nat.cast_le (α := ℚ), ← Nat.cast_lt (α := ℚ), ← sub_nonneg, ← sub_pos, h,
    mul_nonneg_iff_of_pos_left hc, mul_pos_iff_of_pos_left hc, sub_nonneg, sub_pos]
  exact ⟨Iff.rfl, Iff.rfl⟩

/-- Whether a fraction of units reads back is decided by the two midpoints. -/
theorem roundsTo_iff (hfinite : x.isFinite = true) (hpos : 0 < x.units) (hden : 0 < den) :
    x.roundsTo num den = true ↔ x.ReadsBack (num / (den * unitsPerOne)) := by
  have hscale : (0 : ℚ) < 4 * den * unitsPerOne :=
    mul_pos (mul_pos (by norm_num) (Nat.cast_pos.mpr hden)) unitsPerOne_pos_rat
  obtain ⟨hlow, hlow'⟩ :=
    cast_le_and_lt_iff hscale (lowEnd_sub num (gapBelow_lt hfinite hpos).le hden)
  obtain ⟨hhigh, hhigh'⟩ := cast_le_and_lt_iff hscale (x.highEnd_sub num hden)
  rw [readsBack_iff hfinite hpos, roundsTo_eq]
  split_ifs with heven
  · simp only [Bool.and_eq_true, decide_eq_true_eq, hlow, hhigh, heven, implies_true, and_true]
  · simp only [Bool.and_eq_true, decide_eq_true_eq, hlow', hhigh', heven, imp_false, not_or,
      lt_iff_le_and_ne]
    constructor
    · rintro ⟨⟨hmin, hne⟩, hmax, hne'⟩
      exact ⟨hmin, hmax, hne.symm, hne'⟩
    · rintro ⟨hmin, hmax, hne, hne'⟩
      exact ⟨⟨hmin, Ne.symm hne⟩, hmax, hne'⟩

end LogRelay.Binary64
