import LogRelay.Proofs.Binary64.Grids

/-!
# The shortest decimal

A number has one decimal value that is told by three conditions: it reads back as the number, no
decimal with fewer digits does, and of those with as many digits it is the nearest one, or the
larger one of two. The search for it goes from coarse grids of decimals to fine ones, and the first
grid that has a point which reads back holds all decimals with the fewest digits.
-/

namespace LogRelay.Binary64

/-- The quotient that a decimal stands for. -/
def Decimal.value (d : Decimal) : ℚ :=
  d.digits * 10 ^ d.exponent

/-- How many digits a decimal has. -/
def Decimal.length (d : Decimal) : Nat :=
  (Nat.toDigits 10 d.digits).length

/-- The decimal reads back as the number with the fewest digits, and of those that do it is the
nearest one, or the larger one of two at one distance. -/
structure Shortest (x : Binary64) (d : Decimal) : Prop where
  readsBack : x.ReadsBack d.value
  fewest : ∀ d' : Decimal, x.ReadsBack d'.value → d.length ≤ d'.length
  nearest : ∀ d' : Decimal, x.ReadsBack d'.value → d'.length = d.length →
    |d.value - x.magnitude| ≤ |d'.value - x.magnitude|
  larger : ∀ d' : Decimal, x.ReadsBack d'.value → d'.length = d.length →
    |d'.value - x.magnitude| = |d.value - x.magnitude| → d'.value ≤ d.value

variable {x : Binary64} {d d' : Decimal} {n m k : Nat} {e : ℤ}

/-- There is only one shortest decimal. -/
theorem Shortest.value_eq (h : x.Shortest d) (h' : x.Shortest d') : d.value = d'.value := by
  have hlength : d.length = d'.length :=
    le_antisymm (h.fewest d' h'.readsBack) (h'.fewest d h.readsBack)
  have hdist : |d.value - x.magnitude| = |d'.value - x.magnitude| :=
    le_antisymm (h.nearest d' h'.readsBack hlength.symm) (h'.nearest d h.readsBack hlength)
  exact le_antisymm (h'.larger d h.readsBack hlength hdist)
    (h.larger d' h'.readsBack hlength.symm hdist.symm)

/-! ## Decimals -/

namespace Decimal

theorem length_pos (d : Decimal) : 0 < d.length :=
  Nat.length_toDigits_pos

theorem length_of_lt_ten (h : d.digits < 10) : d.length = 1 := by
  rw [length, Nat.toDigits_of_lt_base h, List.length_singleton]

theorem value_bounds (hd : 0 < d.digits) :
    (10 : ℚ) ^ (d.exponent + d.length - 1) ≤ d.value ∧ d.value < 10 ^ (d.exponent + d.length) := by
  have hlow : (10 : ℚ) ^ (d.length - 1) ≤ d.digits := by exact_mod_cast pow_length_toDigits_le hd
  have hhigh : (d.digits : ℚ) < 10 ^ d.length := by exact_mod_cast lt_pow_length_toDigits d.digits
  have hlength : d.exponent + d.length - 1 = ((d.length - 1 : Nat) : ℤ) + d.exponent := by
    have hpositive := d.length_pos
    omega
  rw [hlength, add_comm d.exponent, ten_zpow_add, ten_zpow_add, zpow_natCast, zpow_natCast]
  exact ⟨mul_le_mul_of_nonneg_right hlow (ten_zpow_pos _).le,
    mul_lt_mul_of_pos_right hhigh (ten_zpow_pos _)⟩

/-- A decimal is on every grid that is finer than its last digit. -/
theorem exists_value_eq_grid (h : e ≤ d.exponent) : ∃ k : Nat, d.value = k * 10 ^ e := by
  obtain ⟨n, hn⟩ := Int.eq_ofNat_of_zero_le (Int.sub_nonneg_of_le h)
  refine ⟨d.digits * 10 ^ n, ?_⟩
  have hexponent : d.exponent = n + e := by omega
  rw [value, hexponent, ten_zpow_add, zpow_natCast]
  push_cast
  ring

theorem value_mul_ten (k : Nat) (e : ℤ) :
    (⟨10 * k, e⟩ : Decimal).value = (⟨k, e + 1⟩ : Decimal).value := by
  rw [value, value, ← ten_mul_ten_zpow]
  push_cast
  ring

theorem strip_eq {fuel : Nat} (h : d.digits % 10 ≠ 0) : d.strip fuel = d := by
  cases fuel with
  | zero => rfl
  | succ fuel => rw [strip, if_neg h]

/-- Stripped of its zero, ten is a single digit like those below it. -/
theorem strip_of_le_ten (hpos : 0 < d.digits) (hten : d.digits ≤ 10) :
    (d.strip 17).value = d.value ∧ (d.strip 17).length = 1 := by
  obtain ⟨digits, e⟩ := d
  rcases Nat.lt_or_eq_of_le hten with hdigit | rfl
  · rw [strip_eq (by dsimp only at *; omega)]
    exact ⟨rfl, length_of_lt_ten hdigit⟩
  · have hstrip : strip 17 ⟨10, e⟩ = ⟨1, e + 1⟩ := by simp [strip]
    rw [hstrip]
    exact ⟨(value_mul_ten 1 e).symm, length_of_lt_ten (show 1 < 10 by decide)⟩

end Decimal

/-! ## The first grid that has a point -/

theorem Picks.nearest_value (h : x.Picks e m) (he : e ≤ d.exponent) (hd : x.ReadsBack d.value) :
    |m * 10 ^ e - x.magnitude| ≤ |d.value - x.magnitude| ∧
      (|d.value - x.magnitude| = |m * 10 ^ e - x.magnitude| → d.value ≤ m * 10 ^ e) := by
  obtain ⟨k, hk⟩ := Decimal.exists_value_eq_grid he
  rw [hk] at hd ⊢
  exact ⟨h.nearest k hd, fun hdist => grid_mono e (h.larger k hd hdist)⟩

section Decade

variable (hfinite : x.isFinite = true) (hpos : 0 < x.units) {top : ℤ}
  (hlow : 10 ^ top ≤ x.magnitude) (hhigh : x.magnitude < 10 ^ (top + 1))
include hfinite hpos

theorem digits_pos_of_readsBack (hd : x.ReadsBack d.value) : 0 < d.digits := by
  refine Nat.pos_of_ne_zero fun hzero => not_readsBack_zero hfinite hpos ?_
  rwa [Decimal.value, hzero, Nat.cast_zero, zero_mul] at hd

include hlow hhigh

/-- If no single digit reads back, all that does is in the decade of the number. -/
theorem exponent_add_length_eq (hmiss : ∀ k : Nat, ¬x.ReadsBack (k * 10 ^ top))
    (hd : x.ReadsBack d.value) : d.exponent + d.length = top + 1 := by
  obtain ⟨hmin, hmax⟩ := Decimal.value_bounds (digits_pos_of_readsBack hfinite hpos hd)
  have habove : 10 ^ top < d.value := by
    by_contra hle
    have hreads := hd.of_le hfinite hpos (not_lt.mp hle) hlow
    rw [← one_mul_ten_zpow] at hreads
    exact hmiss 1 hreads
  have hbelow : d.value < 10 ^ (top + 1) := by
    by_contra hle
    have hreads := hd.of_ge hfinite hpos (not_lt.mp hle) hhigh.le
    rw [← ten_mul_ten_zpow] at hreads
    exact hmiss 10 hreads
  have hleast := ten_zpow_lt_iff.mp (hmin.trans_lt hbelow)
  have hmost := ten_zpow_lt_iff.mp (habove.trans hmax)
  omega

/-- On a finer grid than that of the first digit the decimal is in lowest terms, and all others with
as few digits are on the same grid. -/
theorem shortest_of_picks (hn : 0 < n)
    (hmiss : ∀ n' < n, ∀ k : Nat, ¬x.ReadsBack (k * 10 ^ (top - n')))
    (h : x.Picks (top - n) m) : x.Shortest (Decimal.strip 17 ⟨m, top - n⟩) := by
  have hdecade : ∀ d : Decimal, x.ReadsBack d.value → d.exponent + d.length = top + 1 := by
    have hfirst := hmiss 0 hn
    rw [Nat.cast_zero, sub_zero] at hfirst
    exact fun d => exponent_add_length_eq hfinite hpos hlow hhigh hfirst
  have hcoarse : ∀ d : Decimal, top - n < d.exponent → d.exponent ≤ top →
      ¬x.ReadsBack d.value := by
    intro d hlt hle
    obtain ⟨n', hn'⟩ := Int.eq_ofNat_of_zero_le (Int.sub_nonneg_of_le hle)
    have hexponent : d.exponent = top - n' := by omega
    rw [Decimal.value, hexponent]
    exact hmiss n' (by omega) d.digits
  have hlength : top - n + (⟨m, top - n⟩ : Decimal).length = top + 1 :=
    hdecade ⟨m, top - n⟩ h.readsBack
  have hlast : m % 10 ≠ 0 := by
    intro hzero
    obtain ⟨k, rfl⟩ := Nat.dvd_of_mod_eq_zero hzero
    have hreads : x.ReadsBack (⟨10 * k, top - n⟩ : Decimal).value := h.readsBack
    rw [Decimal.value_mul_ten] at hreads
    exact hcoarse _ (lt_add_one _) (by dsimp only; omega) hreads
  rw [Decimal.strip_eq hlast]
  refine ⟨h.readsBack, fun d hd => ?_, fun d hd hlength' => ?_, fun d hd hlength' => ?_⟩
  · by_contra hshorter
    have hdlength := hdecade d hd
    have hdpos := d.length_pos
    exact hcoarse d (by omega) (by omega) hd
  · have hdlength := hdecade d hd
    exact (h.nearest_value (by omega) hd).1
  · have hdlength := hdecade d hd
    exact (h.nearest_value (by omega) hd).2

omit hlow in
/-- What is nearest on the grid of the first digit is a single digit, or ten. -/
theorem Picks.le_ten (h : x.Picks top m) : m ≤ 10 := by
  have hten : x.magnitude ≤ (10 : Nat) * 10 ^ top := ten_mul_ten_zpow top ▸ hhigh.le
  by_contra hlarge
  have hgrid : ((10 : Nat) * 10 ^ top : ℚ) < m * 10 ^ top :=
    mul_lt_mul_of_pos_right (Nat.cast_lt.mpr (not_le.mp hlarge)) (ten_zpow_pos top)
  have hdist := h.nearest 10 (h.readsBack.of_ge hfinite hpos hgrid.le hten)
  rw [abs_grid_sub_of_ge hten, abs_grid_sub_of_ge (hten.trans hgrid.le)] at hdist
  linarith

omit hhigh in
/-- A single digit of a smaller order is below the power of ten, which is below the number. -/
theorem Picks.nearest_digit (h : x.Picks top m) (hd : x.ReadsBack d.value)
    (hlength : d.length = 1) :
    |m * 10 ^ top - x.magnitude| ≤ |d.value - x.magnitude| ∧
      (|d.value - x.magnitude| = |m * 10 ^ top - x.magnitude| → d.value ≤ m * 10 ^ top) := by
  rcases le_or_gt top d.exponent with hgrid | hfiner
  · exact h.nearest_value hgrid hd
  · have hvalue : d.value < 10 ^ top := by
      refine (Decimal.value_bounds (digits_pos_of_readsBack hfinite hpos hd)).2.trans_le ?_
      rw [hlength]
      exact ten_zpow_le_iff.mpr (by omega)
    have hone : ((1 : Nat) : ℚ) * 10 ^ top ≤ x.magnitude := (one_mul_ten_zpow top).symm ▸ hlow
    have hdist := h.nearest 1 (hd.of_le hfinite hpos ((one_mul_ten_zpow top).symm ▸ hvalue.le) hone)
    rw [abs_grid_sub_of_le hone, one_mul_ten_zpow] at hdist
    rw [abs_of_nonpos (sub_nonpos.mpr (hvalue.le.trans hlow)), neg_sub]
    exact ⟨by linarith, fun heq => by linarith⟩

theorem shortest_of_picks_first (h : x.Picks top m) :
    x.Shortest (Decimal.strip 17 ⟨m, top⟩) := by
  have hmpos : 0 < m := digits_pos_of_readsBack (d := ⟨m, top⟩) hfinite hpos h.readsBack
  obtain ⟨hvalue, hlength⟩ :=
    Decimal.strip_of_le_ten (d := ⟨m, top⟩) hmpos (h.le_ten hfinite hpos hhigh)
  refine ⟨hvalue ▸ h.readsBack, fun d _ => hlength ▸ d.length_pos, ?_, ?_⟩
  · rw [hvalue, hlength]
    exact fun d hd hdlength => (h.nearest_digit hfinite hpos hlow hd hdlength).1
  · rw [hvalue, hlength]
    exact fun d hd hdlength => (h.nearest_digit hfinite hpos hlow hd hdlength).2

end Decade

/-! ## The search -/

theorem findSome?_range_eq_some {α : Type} {f : Nat → Option α} {a : α}
    (h : (List.range k).findSome? f = some a) : ∃ n, f n = some a ∧ ∀ n' < n, f n' = none := by
  induction k with
  | zero => cases h
  | succ k ih =>
      rw [List.range_succ, List.findSome?_append, Option.or_eq_some_iff] at h
      rcases h with h | ⟨hnone, hlast⟩
      · exact ih h
      · rw [List.findSome?_singleton] at hlast
        exact ⟨k, hlast, fun n' hn' =>
          List.findSome?_eq_none_iff.mp hnone n' (List.mem_range.mpr hn')⟩

theorem shortest_eq (x : Binary64) :
    x.shortest = ((List.range 17).findSome? fun n =>
      x.nearestOnGrid? (floorLog10 x.units unitsPerOne - (n : Nat))).elim ⟨x.units, 0⟩
        (Decimal.strip 17) := by
  simp only [shortest, List.findSome?_map, Function.comp_def]

theorem exists_shortest_eq (hfinite : x.isFinite = true) (hpos : 0 < x.units) :
    ∃ n m : Nat, x.shortest = Decimal.strip 17 ⟨m, floorLog10 x.units unitsPerOne - n⟩ ∧
      x.Picks (floorLog10 x.units unitsPerOne - n) m ∧
      ∀ n' < n, ∀ k : Nat, ¬x.ReadsBack (k * 10 ^ (floorLog10 x.units unitsPerOne - n')) := by
  have hlow : 10 ^ floorLog10 x.units unitsPerOne ≤ x.magnitude :=
    (floorLog10_bounds hpos unitsPerOne_pos).1
  rw [shortest_eq]
  generalize floorLog10 x.units unitsPerOne = top at hlow ⊢
  have hgrids := fun n : Nat => nearestOnGrid?_cases hfinite hpos (top - n)
  cases hsearch : (List.range 17).findSome? fun n => x.nearestOnGrid? (top - (n : Nat)) with
  | none =>
      have hlast := List.findSome?_eq_none_iff.mp hsearch 16 (by decide)
      obtain ⟨k, hk⟩ := exists_readsBack_seventeen hfinite hpos (e := top - (16 : Nat))
        (by simpa using hlow)
      rcases hgrids 16 with ⟨m, hm, -⟩ | ⟨-, hmiss⟩
      · cases hlast.symm.trans hm
      · exact absurd hk (hmiss k)
  | some d =>
      obtain ⟨n, hn, hbefore⟩ := findSome?_range_eq_some hsearch
      rcases hgrids n with ⟨m, hm, hpicks⟩ | ⟨hnone, -⟩
      · cases hm.symm.trans hn
        refine ⟨n, m, rfl, hpicks, fun n' hn' => ?_⟩
        rcases hgrids n' with ⟨m', hm', -⟩ | ⟨-, hmiss⟩
        · cases (hbefore n' hn').symm.trans hm'
        · exact hmiss
      · cases hnone.symm.trans hn

/-- What the search finds is the shortest decimal. -/
theorem shortest_shortest (hfinite : x.isFinite = true) (hpos : 0 < x.units) :
    x.Shortest x.shortest := by
  obtain ⟨hlow, hhigh⟩ := floorLog10_bounds hpos unitsPerOne_pos
  obtain ⟨n, m, hshortest, hpicks, hmiss⟩ := exists_shortest_eq hfinite hpos
  rw [hshortest]
  cases n with
  | zero =>
      rw [Nat.cast_zero, sub_zero] at hpicks ⊢
      exact shortest_of_picks_first hfinite hpos hlow hhigh hpicks
  | succ n => exact shortest_of_picks hfinite hpos hlow hhigh n.succ_pos hmiss hpicks

end LogRelay.Binary64
