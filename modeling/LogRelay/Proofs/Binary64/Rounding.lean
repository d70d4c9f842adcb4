import Mathlib.Data.Nat.Dist
import Mathlib.Tactic.SplitIfs
import LogRelay.Proofs.Binary64.Fields

/-!
# Rounding to the nearest

A quotient is rounded to the whole number at the least distance, and an integer to the binary64
number at the least distance. Of two at one distance the even one is taken: an even whole number, a
number whose last fraction bit is zero. Both are told by distances to all candidates, and there is
only one number that meets them. The numbers around an integer are multiples of one power of two,
so the second kind of rounding comes down to the first.
-/

namespace LogRelay

/-! ## Quotients -/

/-- No whole number is nearer to the quotient, and of two nearest ones it is the even one. -/
structure NearestWhole (num den n : Nat) : Prop where
  nearest : ∀ m, num.dist (n * den) ≤ num.dist (m * den)
  even : ∀ m, m ≠ n → num.dist (m * den) = num.dist (n * den) → n % 2 = 0

variable {num den m n : Nat}

theorem le_roundHalfEven (hden : 0 < den) (h : n * den ≤ num) : n ≤ roundHalfEven num den := by
  have hquotient := (Nat.le_div_iff_mul_le hden).mpr h
  simp only [roundHalfEven]
  split_ifs <;> omega

theorem roundHalfEven_le (hden : 0 < den) (h : num < n * den) : roundHalfEven num den ≤ n := by
  have hquotient := (Nat.div_lt_iff_lt_mul hden).mpr h
  simp only [roundHalfEven]
  split_ifs <;> omega

/-- Rounding stays within half the distance of neighbours, and reaches it only at even numbers. -/
theorem roundHalfEven_half (num : Nat) (hden : 0 < den) :
    2 * num ≤ 2 * (roundHalfEven num den * den) + den ∧
      2 * (roundHalfEven num den * den) ≤ 2 * num + den ∧
      (2 * num = 2 * (roundHalfEven num den * den) + den ∨
        2 * (roundHalfEven num den * den) = 2 * num + den → roundHalfEven num den % 2 = 0) := by
  have hnum := Nat.div_add_mod' num den
  have hrest := Nat.mod_lt num hden
  have hnext : (num / den + 1) * den = num / den * den + den := Nat.succ_mul _ _
  simp only [roundHalfEven]
  split_ifs with hbelow habove heven
  · omega
  · rw [hnext]
    omega
  · omega
  · rw [hnext]
    omega

theorem mul_add_le_mul (den : Nat) (h : m < n) : m * den + den ≤ n * den := by
  rw [← Nat.succ_mul]
  exact Nat.mul_le_mul_right den h

/-- Half the distance of neighbours is enough. -/
theorem nearestWhole_of_half (hden : 0 < den) (habove : 2 * num ≤ 2 * (n * den) + den)
    (hbelow : 2 * (n * den) ≤ 2 * num + den)
    (heven : 2 * num = 2 * (n * den) + den ∨ 2 * (n * den) = 2 * num + den → n % 2 = 0) :
    NearestWhole num den n := by
  constructor
  · intro m
    rcases Nat.lt_trichotomy m n with h | rfl | h
    · have hstep := mul_add_le_mul den h
      simp only [Nat.dist]
      omega
    · exact Nat.le_refl _
    · have hstep := mul_add_le_mul den h
      simp only [Nat.dist]
      omega
  · intro m hne hdist
    refine heven ?_
    simp only [Nat.dist] at hdist
    rcases Nat.lt_or_gt_of_ne hne with h | h
    · have hstep := mul_add_le_mul den h
      omega
    · have hstep := mul_add_le_mul den h
      omega

theorem nearestWhole_roundHalfEven (num : Nat) (hden : 0 < den) :
    NearestWhole num den (roundHalfEven num den) := by
  obtain ⟨habove, hbelow, heven⟩ := roundHalfEven_half num hden
  exact nearestWhole_of_half hden habove hbelow heven

/-- Between two even numbers at one distance there is one that is nearer. -/
theorem NearestWhole.not_lt (hden : 0 < den) (hm : NearestWhole num den m)
    (hn : NearestWhole num den n) : ¬m < n := by
  intro h
  have hdist := Nat.le_antisymm (hm.nearest n) (hn.nearest m)
  have hbetween := hm.nearest (m + 1)
  have heven := hm.even n h.ne' hdist.symm
  have heven' := hn.even m h.ne hdist
  have hfirst : (m + 1) * den = m * den + den := Nat.succ_mul _ _
  have hstep : (m + 1) * den + den ≤ n * den := mul_add_le_mul den (by omega)
  simp only [Nat.dist] at hdist hbetween
  omega

theorem nearestWhole_iff (hden : 0 < den) :
    NearestWhole num den n ↔ roundHalfEven num den = n := by
  have hrounded := nearestWhole_roundHalfEven num hden
  constructor
  · intro h
    exact Nat.le_antisymm (Nat.not_lt.mp (h.not_lt hden hrounded))
      (Nat.not_lt.mp (hrounded.not_lt hden h))
  · rintro rfl
    exact hrounded

theorem NearestWhole.scale (h : NearestWhole num den n) {c : Nat} (hc : 0 < c) :
    NearestWhole (num * c) (den * c) n := by
  have hdist : ∀ m, (num * c).dist (m * (den * c)) = num.dist (m * den) * c := by
    intro m
    rw [← Nat.mul_assoc, Nat.dist_mul_right]
  constructor
  · intro m
    rw [hdist, hdist]
    exact Nat.mul_le_mul_right c (h.nearest m)
  · intro m hne heq
    rw [hdist, hdist] at heq
    exact h.even m hne (Nat.eq_of_mul_eq_mul_right hc heq)

theorem nearestWhole_mul (n : Nat) (hden : 0 < den) : NearestWhole (n * den) den n :=
  nearestWhole_of_half hden (by omega) (by omega) (by omega)

namespace Binary64

/-! ## Integers -/

/-- The number has the sign of the integer, no finite number is nearer to it in magnitude, and of
two nearest ones it is the one whose last fraction bit is zero. -/
structure Nearest (n : Int) (x : Binary64) : Prop where
  finite : x.isFinite = true
  sign : x.isNegative = decide (n < 0)
  nearest : ∀ y : Binary64, y.isFinite = true →
    (n.natAbs * unitsPerOne).dist x.units ≤ (n.natAbs * unitsPerOne).dist y.units
  even : ∀ y : Binary64, y.isFinite = true → y.units ≠ x.units →
    (n.natAbs * unitsPerOne).dist y.units = (n.natAbs * unitsPerOne).dist x.units →
    x.fractionBits % 2 = 0

/-- A magnitude is below a significand with the given exponent, or a multiple of its last place,
and an even multiple if the last fraction bit is zero. -/
theorem units_lt_or_exists_mul (x : Binary64) (p : Nat) :
    x.units < 2 ^ 52 * 2 ^ p ∨
      ∃ m, x.units = m * 2 ^ p ∧ (x.fractionBits % 2 = 0 → m % 2 = 0) := by
  rcases Nat.lt_or_ge p x.exponentBits with h | h
  · refine .inr ⟨(2 ^ 52 + x.fractionBits) * 2 ^ (x.exponentBits - 1 - p), ?_, fun heven => ?_⟩
    · rw [units_of_exponentBits_pos (Nat.zero_lt_of_lt h), Nat.mul_assoc, ← Nat.pow_add,
        Nat.sub_add_cancel (Nat.le_sub_one_of_lt h)]
    · rw [Nat.mul_mod, Nat.add_mod, heven]
      simp
  · refine .inl (Nat.lt_of_lt_of_le x.units_lt ?_)
    exact Nat.mul_le_mul_left _ (Nat.pow_le_pow_right (by decide) h)

/-- A significand as it stands in a number, where it may carry into the exponent. -/
structure Composed (negative : Bool) (p q : Nat) (x : Binary64) : Prop where
  finite : x.isFinite = true
  sign : x.isNegative = negative
  units : x.units = q * 2 ^ p
  parity : x.fractionBits % 2 = q % 2

theorem composed_of_fields {negative : Bool} {p q exponent fraction : Nat} (hpos : 0 < exponent)
    (hexponent : exponent < 2047) (hfraction : fraction < 2 ^ 52)
    (hunits : (2 ^ 52 + fraction) * 2 ^ (exponent - 1) = q * 2 ^ p)
    (hparity : fraction % 2 = q % 2) :
    Composed negative p q (ofFields negative (exponent * 2 ^ 52 + fraction)) := by
  have hbound : exponent < 2 ^ 11 := by omega
  have hbits : (ofFields negative (exponent * 2 ^ 52 + fraction)).exponentBits = exponent :=
    exponentBits_ofFields hbound hfraction
  refine ⟨?_, isNegative_ofFields hbound hfraction, ?_, ?_⟩
  · rw [isFinite, hbits]
    exact bne_iff_ne.mpr hexponent.ne
  · rw [units_of_exponentBits_pos (by rwa [hbits]), hbits, fractionBits_ofFields hbound hfraction]
    exact hunits
  · rw [fractionBits_ofFields hbound hfraction]
    exact hparity

theorem composed_ofFields (negative : Bool) {p q : Nat} (hp : p < 2045) (hlow : 2 ^ 52 ≤ q)
    (hhigh : q ≤ 2 ^ 53) : Composed negative p q (ofFields negative (p * 2 ^ 52 + q)) := by
  rcases Nat.lt_or_ge q (2 ^ 53) with hq | hq
  · have hfields : p * 2 ^ 52 + q = (p + 1) * 2 ^ 52 + (q - 2 ^ 52) := by omega
    rw [hfields]
    refine composed_of_fields (by omega) (by omega) (by omega) ?_ (by omega)
    rw [Nat.add_sub_cancel' hlow, Nat.add_sub_cancel]
  · obtain rfl : q = 2 ^ 53 := Nat.le_antisymm hhigh hq
    have hfields : p * 2 ^ 52 + 2 ^ 53 = (p + 2) * 2 ^ 52 + 0 := by omega
    rw [hfields]
    refine composed_of_fields (by omega) (by omega) (by decide) ?_ (by decide)
    change 2 ^ 52 * 2 ^ (p + 1) = 2 ^ 53 * 2 ^ p
    ring

/-- How a positive integer is written as a significand. -/
structure Significand (n p q : Nat) : Prop where
  low : 2 ^ 52 ≤ q
  high : q ≤ 2 ^ 53
  /-- The integer has no significand with a larger exponent. -/
  leading : 2 ^ 52 * 2 ^ p ≤ n * unitsPerOne
  nearest : NearestWhole (n * unitsPerOne) (2 ^ p) q

theorem unitsPerOne_pos : 0 < unitsPerOne := by
  rw [unitsPerOne]
  exact Nat.two_pow_pos 1074

theorem two_pow_mul_eq_unitsPerOne {a b : Nat} (h : a + b = 1074) :
    2 ^ a * 2 ^ b = unitsPerOne := by
  rw [← Nat.pow_add, h, unitsPerOne]

/-- Up to fifty-three bits an integer is its own significand. -/
theorem significand_of_log2_le {n : Nat} (hnonzero : n ≠ 0) (hlog : n.log2 ≤ 52) :
    Significand n (n.log2 + 1022) (n * 2 ^ (52 - n.log2)) := by
  obtain ⟨hlow, hhigh⟩ := shifted_bounds hnonzero hlog
  have hunits : n * unitsPerOne = n * 2 ^ (52 - n.log2) * 2 ^ (n.log2 + 1022) := by
    rw [Nat.mul_assoc, two_pow_mul_eq_unitsPerOne (by omega)]
  refine ⟨hlow, by omega, ?_, ?_⟩
  · rw [hunits]
    exact Nat.mul_le_mul_right _ hlow
  · rw [hunits]
    exact nearestWhole_mul _ (Nat.two_pow_pos _)

/-- A longer integer is rounded to fifty-three bits, which may carry to the next power of two. -/
theorem significand_of_lt_log2 {n : Nat} (hnonzero : n ≠ 0) (hlog : 52 < n.log2) :
    Significand n (n.log2 + 1022) (roundHalfEven n (2 ^ (n.log2 - 52))) := by
  have hpos : 0 < 2 ^ (n.log2 - 52) := Nat.two_pow_pos _
  have hlow : 2 ^ 52 * 2 ^ (n.log2 - 52) ≤ n := by
    rw [← Nat.pow_add, Nat.add_sub_cancel' hlog.le]
    exact Nat.log2_self_le hnonzero
  have hhigh : n < 2 ^ 53 * 2 ^ (n.log2 - 52) := by
    rw [← Nat.pow_add, show 53 + (n.log2 - 52) = n.log2 + 1 by omega]
    exact Nat.lt_log2_self
  have hplace : 2 ^ (n.log2 - 52) * unitsPerOne = 2 ^ (n.log2 + 1022) := by
    have hexponent : n.log2 + 1022 = n.log2 - 52 + 1074 := by omega
    rw [hexponent, Nat.pow_add, unitsPerOne]
  refine ⟨le_roundHalfEven hpos hlow, roundHalfEven_le hpos hhigh, ?_, ?_⟩
  · rw [← hplace, ← Nat.mul_assoc]
    exact Nat.mul_le_mul_right _ hlow
  · rw [← hplace]
    exact (nearestWhole_roundHalfEven n hpos).scale unitsPerOne_pos

theorem exists_significand {n : Nat} (hnonzero : n ≠ 0) :
    ∃ q, magnitudeOfNat n = (n.log2 + 1022) * 2 ^ 52 + q ∧ Significand n (n.log2 + 1022) q := by
  rcases Nat.lt_or_ge 52 n.log2 with hlog | hlog
  · refine ⟨_, ?_, significand_of_lt_log2 hnonzero hlog⟩
    simp only [magnitudeOfNat]
    rw [if_neg hnonzero, if_neg (Nat.not_le.mpr hlog)]
    omega
  · refine ⟨_, ?_, significand_of_log2_le hnonzero hlog⟩
    simp only [magnitudeOfNat]
    rw [if_neg hnonzero, if_pos hlog]
    omega

/-- The significand of an integer is nearer to it than any number with a smaller exponent. -/
theorem Significand.dist_lt {n p q units : Nat} (h : Significand n p q)
    (hunits : units < 2 ^ 52 * 2 ^ p) :
    (n * unitsPerOne).dist (q * 2 ^ p) < (n * unitsPerOne).dist units := by
  have hnearest := h.nearest.nearest (2 ^ 52)
  have hleading := h.leading
  generalize 2 ^ 52 * 2 ^ p = leading at hunits hnearest hleading
  simp only [Nat.dist] at hnearest ⊢
  omega

theorem nearest_of_composed {n : Int} {p q : Nat} {x : Binary64}
    (hsignificand : Significand n.natAbs p q) (hx : Composed (decide (n < 0)) p q x) :
    Nearest n x := by
  refine ⟨hx.finite, hx.sign, fun y _ => ?_, fun y _ hne hdist => ?_⟩
  · rw [hx.units]
    rcases y.units_lt_or_exists_mul p with hy | ⟨m, hm, -⟩
    · exact (hsignificand.dist_lt hy).le
    · rw [hm]
      exact hsignificand.nearest.nearest m
  · rw [hx.units] at hne hdist
    rw [hx.parity]
    rcases y.units_lt_or_exists_mul p with hy | ⟨m, hm, -⟩
    · exact absurd hdist (hsignificand.dist_lt hy).ne'
    · rw [hm] at hne hdist
      exact hsignificand.nearest.even m (fun heq => hne (heq ▸ rfl)) hdist

/-- Whatever number is nearest, it has the significand of the integer. -/
theorem Nearest.units_eq {n : Int} {p q : Nat} {x y : Binary64}
    (hsignificand : Significand n.natAbs p q) (hx : Composed (decide (n < 0)) p q x)
    (hy : Nearest n y) : y.units = q * 2 ^ p := by
  have hpos := Nat.two_pow_pos p
  have hnearest := hy.nearest x hx.finite
  rw [hx.units] at hnearest
  rcases y.units_lt_or_exists_mul p with hlow | ⟨m, hm, hparity⟩
  · exact absurd hnearest (Nat.not_le.mpr (hsignificand.dist_lt hlow))
  · rw [hm] at hnearest ⊢
    by_cases hne : m = q
    · rw [hne]
    -- Both are nearest, so the last fraction bit of the number is zero and its multiple is even.
    have hunits : x.units ≠ y.units := by
      rw [hx.units, hm]
      exact fun heq => hne (Nat.eq_of_mul_eq_mul_right hpos heq).symm
    have hdist := Nat.le_antisymm (hsignificand.nearest.nearest m) hnearest
    have heven := hparity (hy.even x hx.finite hunits (by rwa [hx.units, hm]))
    have hwhole : NearestWhole (n.natAbs * unitsPerOne) (2 ^ p) m :=
      ⟨fun k => hnearest.trans (hsignificand.nearest.nearest k), fun _ _ _ => heven⟩
    rw [← (nearestWhole_iff hpos).mp hwhole, (nearestWhole_iff hpos).mp hsignificand.nearest]

theorem nearest_zero : Nearest 0 (ofInt 0) := by
  have hunits : (ofInt 0).units = 0 := by decide
  refine ⟨by decide, by decide, fun y _ => ?_, fun _ _ _ _ => by decide⟩
  rw [hunits]
  simp

/-- The number nearest to an integer is the one that is computed. -/
theorem nearest_iff {n : Int} {x : Binary64} (hsmall : n.natAbs < 2 ^ 64) :
    Nearest n x ↔ ofInt n = x := by
  by_cases hzero : n = 0
  · subst hzero
    refine ⟨fun h => ?_, fun h => h ▸ nearest_zero⟩
    have hcomputed : (ofInt 0).units = 0 := by decide
    have hnearest := h.nearest (ofInt 0) nearest_zero.finite
    rw [hcomputed, Int.natAbs_zero, Nat.zero_mul, Nat.dist_zero_left, Nat.dist_zero_left,
      Nat.le_zero] at hnearest
    exact ext_units (nearest_zero.sign.trans h.sign.symm) (hcomputed.trans hnearest.symm)
  · have hnonzero : n.natAbs ≠ 0 := Int.natAbs_ne_zero.mpr hzero
    obtain ⟨q, hmagnitude, hsignificand⟩ := exists_significand hnonzero
    have hlog : n.natAbs.log2 < 64 := (Nat.log2_lt hnonzero).mpr hsmall
    have hcomposed : Composed (decide (n < 0)) (n.natAbs.log2 + 1022) q (ofInt n) := by
      rw [ofInt, hmagnitude]
      exact composed_ofFields _ (by omega) hsignificand.low hsignificand.high
    constructor
    · intro h
      refine ext_units (hcomposed.sign.trans h.sign.symm) ?_
      rw [hcomposed.units, h.units_eq hsignificand hcomposed]
    · rintro rfl
      exact nearest_of_composed hsignificand hcomposed

end Binary64

end LogRelay
