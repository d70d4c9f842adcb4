import LogRelay.Proofs.Binary64.ReadingBack
import Mathlib.Algebra.Order.Field.Power

/-!
# Decimal grids

The multiples of a power of ten around a number. What reads back forms an interval, so a grid has a
point that reads back only if one of the two points around the number does, and the nearest one is
among the two. The seventeenth grid from the first digit on has such a point, because its points are
closer to each other than the ends of the interval.
-/

namespace LogRelay.Binary64

variable {x : Binary64} {n m k num den : Nat} {e : ℤ}

/-! ## Digits -/

theorem lt_pow_length_toDigits (n : Nat) : n < 10 ^ (Nat.toDigits 10 n).length :=
  (Nat.length_toDigits_le_iff (by decide) Nat.length_toDigits_pos).mp le_rfl

theorem pow_length_toDigits_le (hn : 0 < n) : 10 ^ ((Nat.toDigits 10 n).length - 1) ≤ n := by
  rcases Nat.eq_zero_or_pos ((Nat.toDigits 10 n).length - 1) with hone | hmore
  · rw [hone]
    exact hn
  · refine Nat.le_of_not_lt fun hlt => ?_
    have hlength := (Nat.length_toDigits_le_iff (by decide) hmore).mpr hlt
    omega

/-! ## Powers of ten -/

theorem ten_zpow_pos (e : ℤ) : (0 : ℚ) < 10 ^ e := by
  positivity

theorem ten_zpow_add (a b : ℤ) : (10 : ℚ) ^ (a + b) = 10 ^ a * 10 ^ b :=
  zpow_add₀ (by norm_num) a b

theorem ten_zpow_lt_iff {a b : ℤ} : (10 : ℚ) ^ a < 10 ^ b ↔ a < b :=
  zpow_lt_zpow_iff_right₀ (by norm_num)

theorem ten_zpow_le_iff {a b : ℤ} : (10 : ℚ) ^ a ≤ 10 ^ b ↔ a ≤ b :=
  zpow_le_zpow_iff_right₀ (by norm_num)

theorem one_mul_ten_zpow (e : ℤ) : ((1 : Nat) : ℚ) * 10 ^ e = 10 ^ e := by
  rw [Nat.cast_one, one_mul]

theorem ten_mul_ten_zpow (e : ℤ) : ((10 : Nat) : ℚ) * 10 ^ e = 10 ^ (e + 1) := by
  rw [ten_zpow_add, zpow_one, mul_comm, Nat.cast_ofNat]

theorem ten_zpow_eq_div (e : ℤ) :
    (10 : ℚ) ^ e = (10 ^ e.toNat : Nat) / (10 ^ (-e).toNat : Nat) := by
  push_cast
  rw [← zpow_natCast, ← zpow_natCast, ← zpow_sub₀ (by norm_num)]
  congr 1
  omega

theorem ten_pow_le_div_iff (hden : 0 < den) :
    (10 : ℚ) ^ (k : ℤ) ≤ num / den ↔ 10 ^ k * den ≤ num := by
  rw [zpow_natCast, le_div_iff₀ (Nat.cast_pos.mpr hden)]
  norm_cast

theorem ten_pow_neg_le_div_iff (hden : 0 < den) :
    (10 : ℚ) ^ (-(k : ℤ)) ≤ num / den ↔ den ≤ num * 10 ^ k := by
  rw [zpow_neg, zpow_natCast, inv_eq_one_div, div_le_div_iff₀ (by positivity)
    (Nat.cast_pos.mpr hden), one_mul]
  norm_cast

theorem div_le_ten_pow_neg_iff (hden : 0 < den) :
    (num / den : ℚ) ≤ 10 ^ (-(k : ℤ)) ↔ num * 10 ^ k ≤ den := by
  rw [zpow_neg, zpow_natCast, inv_eq_one_div, div_le_div_iff₀ (Nat.cast_pos.mpr hden)
    (by positivity), one_mul]
  norm_cast

theorem exists_length_repr (hn : 0 < n) :
    ∃ k, n.repr.length = k + 1 ∧ 10 ^ k ≤ n ∧ n < 10 ^ (k + 1) := by
  obtain ⟨k, hk⟩ := Nat.exists_eq_succ_of_ne_zero (Nat.length_toDigits_pos (b := 10) (n := n)).ne'
  have hlow := pow_length_toDigits_le hn
  have hhigh := lt_pow_length_toDigits n
  rw [hk] at hlow hhigh
  refine ⟨k, ?_, hlow, hhigh⟩
  rw [← String.length_toList, Nat.toList_repr, hk]

/-- The decade of a quotient is found from the digits of its whole part, or of the whole part of its
inverse. -/
theorem floorLog10_bounds (hnum : 0 < num) (hden : 0 < den) :
    (10 : ℚ) ^ floorLog10 num den ≤ num / den ∧
      (num / den : ℚ) < 10 ^ (floorLog10 num den + 1) := by
  simp only [floorLog10]
  split_ifs with hwhole hpower
  · obtain ⟨k, hlength, hlow, hhigh⟩ := exists_length_repr (Nat.div_pos hwhole hden)
    have hexponent : ((k + 1 : Nat) : ℤ) - 1 = k := by omega
    rw [hlength, hexponent, ← Nat.cast_succ, ← not_le, ten_pow_le_div_iff hden,
      ten_pow_le_div_iff hden, not_le]
    exact ⟨(Nat.le_div_iff_mul_le hden).mp hlow, (Nat.div_lt_iff_lt_mul hden).mp hhigh⟩
  -- The inverse has a whole part; whether it is a power of ten decides between two decades.
  · obtain ⟨k, hlength, hlow, -⟩ := exists_length_repr (Nat.div_pos (Nat.le_of_not_le hwhole) hnum)
    rw [hlength, Nat.add_sub_cancel] at hpower
    have hexponent : -(((k + 1 : Nat) : ℤ) - 1) = -k := by omega
    rw [hlength, hexponent, ten_pow_neg_le_div_iff hden]
    refine ⟨hpower, lt_of_le_of_lt ((div_le_ten_pow_neg_iff hden).mpr ?_)
      (ten_zpow_lt_iff.mpr (lt_add_one _))⟩
    rw [Nat.mul_comm]
    exact (Nat.le_div_iff_mul_le hnum).mp hlow
  · obtain ⟨k, hlength, -, hhigh⟩ := exists_length_repr (Nat.div_pos (Nat.le_of_not_le hwhole) hnum)
    rw [hlength, Nat.add_sub_cancel] at hpower
    have hexponent : -((k + 1 : Nat) : ℤ) + 1 = -k := by omega
    rw [hlength, hexponent, ten_pow_neg_le_div_iff hden, ← not_le, ten_pow_neg_le_div_iff hden]
    refine ⟨?_, hpower⟩
    rw [Nat.mul_comm]
    exact ((Nat.div_lt_iff_lt_mul hnum).mp hhigh).le

/-! ## Grids -/

/-- The point of a grid below a number, or at it. -/
def gridBelow (x : Binary64) (e : ℤ) : Nat :=
  x.units * 10 ^ (-e).toNat / (10 ^ e.toNat * unitsPerOne)

/-- A number and a point of a grid compare as whole numbers. -/
theorem mul_units_le_and_lt_iff (x : Binary64) (c k : Nat) (e : ℤ) :
    (c * (x.units * 10 ^ (-e).toNat) ≤ k * (10 ^ e.toNat * unitsPerOne) ↔
        c * x.magnitude ≤ k * 10 ^ e) ∧
      (c * (x.units * 10 ^ (-e).toNat) < k * (10 ^ e.toNat * unitsPerOne) ↔
        c * x.magnitude < k * 10 ^ e) := by
  have hone := unitsPerOne_pos_rat
  have hscale : (0 : ℚ) < unitsPerOne * (10 ^ (-e).toNat : Nat) := by positivity
  refine cast_le_and_lt_iff hscale ?_
  rw [ten_zpow_eq_div, magnitude]
  push_cast
  generalize (unitsPerOne : ℚ) = one at hone ⊢
  field_simp

theorem gridBelow_bounds (x : Binary64) (e : ℤ) :
    x.gridBelow e * 10 ^ e ≤ x.magnitude ∧ x.magnitude < (x.gridBelow e + 1 : Nat) * 10 ^ e := by
  have hup : 0 < 10 ^ e.toNat * unitsPerOne := Nat.mul_pos (by positivity) unitsPerOne_pos
  have hlow := (mul_units_le_and_lt_iff x 1 (x.gridBelow e) e).2.not
  have hhigh := (mul_units_le_and_lt_iff x 1 (x.gridBelow e + 1) e).2
  rw [Nat.one_mul, Nat.cast_one, one_mul] at hlow hhigh
  constructor
  · exact not_lt.mp (hlow.mp (Nat.not_lt.mpr (Nat.div_mul_le_self _ _)))
  · exact hhigh.mp (Nat.lt_mul_of_div_lt (Nat.lt_succ_self _) hup)

theorem roundsTo_grid_iff (hfinite : x.isFinite = true) (hpos : 0 < x.units) (k : Nat) (e : ℤ) :
    x.roundsTo (k * (10 ^ e.toNat * unitsPerOne)) (10 ^ (-e).toNat) = true ↔
      x.ReadsBack (k * 10 ^ e) := by
  have hone := unitsPerOne_pos_rat.ne'
  rw [roundsTo_iff hfinite hpos (by positivity), ten_zpow_eq_div]
  have hvalue : ((k * (10 ^ e.toNat * unitsPerOne) : Nat) : ℚ) /
      ((10 ^ (-e).toNat : Nat) * unitsPerOne) =
        k * ((10 ^ e.toNat : Nat) / (10 ^ (-e).toNat : Nat)) := by
    push_cast
    generalize (unitsPerOne : ℚ) = one at hone ⊢
    field_simp
  rw [hvalue]

/-- The point of a grid that reads back as the number, if there is more than one the nearest, and of
two at one distance the larger. -/
structure Picks (x : Binary64) (e : ℤ) (m : Nat) : Prop where
  readsBack : x.ReadsBack (m * 10 ^ e)
  nearest : ∀ k : Nat, x.ReadsBack (k * 10 ^ e) →
    |m * 10 ^ e - x.magnitude| ≤ |k * 10 ^ e - x.magnitude|
  larger : ∀ k : Nat, x.ReadsBack (k * 10 ^ e) →
    |k * 10 ^ e - x.magnitude| = |m * 10 ^ e - x.magnitude| → k ≤ m

theorem grid_mono (e : ℤ) (h : m ≤ n) : (m : ℚ) * 10 ^ e ≤ n * 10 ^ e :=
  mul_le_mul_of_nonneg_right (Nat.cast_le.mpr h) (ten_zpow_pos e).le

theorem abs_grid_sub_of_le (h : m * 10 ^ e ≤ x.magnitude) :
    |m * 10 ^ e - x.magnitude| = x.magnitude - m * 10 ^ e := by
  rw [abs_of_nonpos (sub_nonpos.mpr h), neg_sub]

theorem abs_grid_sub_of_ge (h : x.magnitude ≤ m * 10 ^ e) :
    |m * 10 ^ e - x.magnitude| = m * 10 ^ e - x.magnitude :=
  abs_of_nonneg (sub_nonneg.mpr h)

section Around

variable (hfinite : x.isFinite = true) (hpos : 0 < x.units) {low : Nat}
  (hlow : low * 10 ^ e ≤ x.magnitude) (hhigh : x.magnitude < (low + 1 : Nat) * 10 ^ e)
include hfinite hpos hlow hhigh

/-- A point that reads back is not nearer than one of the two around the number, which reads back,
too. -/
theorem readsBack_around (h : x.ReadsBack (k * 10 ^ e)) :
    k ≤ low ∧ x.magnitude - low * 10 ^ e ≤ |k * 10 ^ e - x.magnitude| ∧
        x.ReadsBack (low * 10 ^ e) ∨
      low < k ∧ |k * 10 ^ e - x.magnitude| = k * 10 ^ e - x.magnitude ∧
        (low + 1 : Nat) * 10 ^ e ≤ (k * 10 ^ e : ℚ) ∧ x.ReadsBack ((low + 1 : Nat) * 10 ^ e) := by
  rcases Nat.lt_or_ge low k with hk | hk
  · have hgrid := grid_mono e hk
    exact .inr ⟨hk, abs_grid_sub_of_ge (hhigh.le.trans hgrid), hgrid,
      h.of_ge hfinite hpos hgrid hhigh.le⟩
  · have hgrid := grid_mono e hk
    refine .inl ⟨hk, ?_, h.of_le hfinite hpos hgrid hlow⟩
    rw [abs_grid_sub_of_le (hgrid.trans hlow)]
    exact sub_le_sub_left hgrid _

theorem picks_low (hreads : x.ReadsBack (low * 10 ^ e))
    (hnear : x.ReadsBack ((low + 1 : Nat) * 10 ^ e) →
      2 * x.magnitude < (low + (low + 1) : Nat) * 10 ^ e) : x.Picks e low := by
  have hdist := abs_grid_sub_of_le hlow
  refine ⟨hreads, fun k hk => ?_, fun k hk heq => ?_⟩
  · rcases readsBack_around hfinite hpos hlow hhigh hk with ⟨-, hfar, -⟩ | ⟨-, habs, hgrid, hreads'⟩
    · rwa [hdist]
    · have hmid := hnear hreads'
      push_cast at hmid hgrid
      linarith
  · rcases readsBack_around hfinite hpos hlow hhigh hk with ⟨hle, -⟩ | ⟨-, habs, hgrid, hreads'⟩
    · exact hle
    · have hmid := hnear hreads'
      push_cast at hmid hgrid
      linarith

theorem picks_high (hreads : x.ReadsBack ((low + 1 : Nat) * 10 ^ e))
    (hnear : x.ReadsBack (low * 10 ^ e) →
      (low + (low + 1) : Nat) * 10 ^ e ≤ 2 * x.magnitude) : x.Picks e (low + 1) := by
  have hdist := abs_grid_sub_of_ge hhigh.le
  refine ⟨hreads, fun k hk => ?_, fun k hk heq => ?_⟩
  · rcases readsBack_around hfinite hpos hlow hhigh hk with ⟨-, hfar, hreads'⟩ | ⟨-, habs, hgrid, -⟩
    · have hmid := hnear hreads'
      rw [hdist]
      push_cast at hmid ⊢
      linarith
    · rw [hdist, habs]
      exact sub_le_sub_right hgrid _
  · rcases readsBack_around hfinite hpos hlow hhigh hk with ⟨hle, -⟩ | ⟨-, habs, -⟩
    · exact hle.trans (Nat.le_succ low)
    · have hsame : (k : ℚ) * 10 ^ e = (low + 1 : Nat) * 10 ^ e := by linarith
      exact (Nat.cast_injective (mul_right_cancel₀ (ten_zpow_pos e).ne' hsame)).le

end Around

theorem nearestOnGrid?_eq (x : Binary64) (e : ℤ) :
    x.nearestOnGrid? e =
      let grid := fun (k : Nat) => x.roundsTo (k * (10 ^ e.toNat * unitsPerOne)) (10 ^ (-e).toNat)
      let low := x.gridBelow e
      if low != 0 && grid low && grid (low + 1) then
        some ⟨if 2 * (x.units * 10 ^ (-e).toNat) <
          (low + (low + 1)) * (10 ^ e.toNat * unitsPerOne) then low else low + 1, e⟩
      else if low != 0 && grid low then some ⟨low, e⟩
      else if grid (low + 1) then some ⟨low + 1, e⟩
      else none :=
  rfl

/-- A grid is searched for the point that reads back. -/
theorem nearestOnGrid?_cases (hfinite : x.isFinite = true) (hpos : 0 < x.units) (e : ℤ) :
    (∃ m, x.nearestOnGrid? e = some ⟨m, e⟩ ∧ x.Picks e m) ∨
      x.nearestOnGrid? e = none ∧ ∀ k : Nat, ¬x.ReadsBack (k * 10 ^ e) := by
  obtain ⟨hlow, hhigh⟩ := gridBelow_bounds x e
  have hgrid := roundsTo_grid_iff hfinite hpos (e := e)
  have hmid := (mul_units_le_and_lt_iff x 2 (x.gridBelow e + (x.gridBelow e + 1)) e).2
  have hleft : (x.gridBelow e != 0 && x.roundsTo (x.gridBelow e * (10 ^ e.toNat * unitsPerOne))
      (10 ^ (-e).toNat)) = true ↔ x.ReadsBack (x.gridBelow e * 10 ^ e) := by
    rw [Bool.and_eq_true, bne_iff_ne, hgrid]
    refine and_iff_right_of_imp fun hreads hzero => ?_
    rw [hzero, Nat.cast_zero, zero_mul] at hreads
    exact not_readsBack_zero hfinite hpos hreads
  rw [nearestOnGrid?_eq]
  dsimp only
  split_ifs with hboth hnear hfits hfits'
  all_goals rw [Bool.and_eq_true, hleft, hgrid] at hboth
  · exact .inl ⟨_, rfl, picks_low hfinite hpos hlow hhigh hboth.1 fun _ => hmid.mp hnear⟩
  · refine .inl ⟨_, rfl, picks_high hfinite hpos hlow hhigh hboth.2 fun _ => ?_⟩
    exact not_lt.mp (hmid.not.mp hnear)
  · rw [hleft] at hfits
    exact .inl ⟨_, rfl, picks_low hfinite hpos hlow hhigh hfits fun h => absurd ⟨hfits, h⟩ hboth⟩
  · rw [hleft] at hfits
    rw [hgrid] at hfits'
    exact .inl ⟨_, rfl, picks_high hfinite hpos hlow hhigh hfits' fun h => absurd h hfits⟩
  · rw [hleft] at hfits
    rw [hgrid] at hfits'
    refine .inr ⟨rfl, fun k hk => ?_⟩
    rcases readsBack_around hfinite hpos hlow hhigh hk with ⟨-, -, h⟩ | ⟨-, -, -, h⟩
    · exact hfits h
    · exact hfits' h

/-! ## Seventeen digits suffice -/

theorem units_lt_mul_ulp (x : Binary64) : x.units < 2 ^ 53 * x.ulp := by
  have hunits := x.units_lt
  cases hx : x.exponentBits with
  | zero =>
      rw [hx] at hunits
      rw [ulp_of_exponentBits_eq_zero hx]
      omega
  | succ e =>
      rw [hx, pow_succ] at hunits
      rw [ulp_of_exponentBits_eq hx]
      omega

/-- The midpoints around a number are further from each other than its seventeenth digit counts. -/
theorem magnitude_lt_spread (x : Binary64) :
    x.magnitude < 10 ^ 16 * (x.highEnd - x.lowEnd) := by
  have hunits : 4 * x.units < 10 ^ 16 * (2 * x.ulp + x.gapBelow) := by
    have hlt := x.units_lt_mul_ulp
    rw [gapBelow]
    split_ifs with hdense
    · simp only [Bool.and_eq_true, decide_eq_true_eq] at hdense
      have heq : x.units = 2 ^ 52 * x.ulp := by
        rw [units, if_neg (by omega), hdense.1, Nat.add_zero]
      have hulp := x.ulp_pos
      omega
    · omega
  have hunits : (4 * x.units : ℚ) < 10 ^ 16 * (2 * x.ulp + x.gapBelow) := by exact_mod_cast hunits
  rw [magnitude, highEnd, lowEnd, ← sub_div, ← mul_div_assoc,
    div_lt_div_iff_of_pos_right unitsPerOne_pos_rat]
  linarith

theorem exists_readsBack_seventeen (hfinite : x.isFinite = true) (hpos : 0 < x.units)
    (he : (10 : ℚ) ^ (e + 16) ≤ x.magnitude) : ∃ k : Nat, x.ReadsBack (k * 10 ^ e) := by
  obtain ⟨hlow, hhigh⟩ := gridBelow_bounds x e
  generalize x.gridBelow e = low at hlow hhigh
  have hspread := x.magnitude_lt_spread
  have hlowEnd := x.lowEnd_lt_magnitude
  have hhighEnd := x.magnitude_lt_highEnd
  have hstep : (10 : ℚ) ^ e < x.highEnd - x.lowEnd := by
    rw [ten_zpow_add] at he
    norm_num at he
    linarith
  by_cases hreads : x.lowEnd < low * 10 ^ e
  · refine ⟨low, (readsBack_iff hfinite hpos).mpr ⟨hreads.le, by linarith, ?_⟩⟩
    rintro (hend | hend) <;> linarith
  · refine ⟨low + 1, (readsBack_iff hfinite hpos).mpr ⟨by linarith, ?_, ?_⟩⟩
    · push_cast at hhigh ⊢
      linarith
    · push_cast at hhigh ⊢
      rintro (hend | hend) <;> linarith

end LogRelay.Binary64
