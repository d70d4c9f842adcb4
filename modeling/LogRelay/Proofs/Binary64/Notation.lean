import LogRelay.Proofs.Binary64.Places
import LogRelay.Proofs.Binary64.Shortest

/-!
# Numbers in their shortest notation

The text of a number that reads back, told by the value of its shortest decimal: in positional
notation with as few decimal places as the value can be written with, but at least one, or, outside
a range of sizes, with one digit in front of the point, as few places behind it as there can be, and
a power of ten.
-/

namespace LogRelay.Binary64

/-- The value is a whole number of `10 ^ (-places)`, and there are no fewer places to write it with,
apart from those that it is to have at least. -/
structure FewestPlaces (least places n : Nat) (q : ℚ) : Prop where
  value : q * 10 ^ places = n
  least_le : least ≤ places
  fewest : ∀ k m : Nat, least ≤ k → q * 10 ^ k = m → places ≤ k

/-- The text is the value, positionally from `1e-4` up to but not including `1e16`, and with an
exponent outside that range. -/
inductive Written (q : ℚ) : List Char → Prop
  | positional {places n : Nat} {text : List Char} (large : 10 ^ (-4 : ℤ) ≤ q)
      (small : q < 10 ^ (16 : ℤ)) (fewest : FewestPlaces 1 places n q)
      (digits : WithPlaces places n text) : Written q text
  | scientific {places n : Nat} {exponent : ℤ} {text : List Char}
      (size : q < 10 ^ (-4 : ℤ) ∨ 10 ^ (16 : ℤ) ≤ q)
      (leading : 10 ^ exponent ≤ q ∧ q < 10 ^ (exponent + 1))
      (fewest : FewestPlaces 0 places n (q / 10 ^ exponent))
      (digits : WithPlaces places n text) : Written q (text ++ 'e' :: exponent.repr.toList)

/-- The text is the number: its name, or its sign and its shortest decimal. -/
inductive Displays (x : Binary64) : List Char → Prop
  | named {text : List Char} (named : x.Named text) : Displays x text
  | zero (finite : x.isFinite = true) (zero : x.units = 0) :
      Displays x (if x.isNegative then "-0.0".toList else "0.0".toList)
  | finite {d : Decimal} {text : List Char} (finite : x.isFinite = true) (nonzero : x.units ≠ 0)
      (shortest : x.Shortest d) (written : Written d.value text) :
      Displays x (if x.isNegative then '-' :: text else text)

variable {x : Binary64} {d : Decimal} {places places' least n n' : Nat} {q : ℚ}
  {text text' : List Char}

/-! ## Written values -/

theorem FewestPlaces.eq (h : FewestPlaces least places n q) (h' : FewestPlaces least places' n' q) :
    places = places' ∧ n = n' := by
  obtain rfl := le_antisymm (h.fewest places' n' h'.least_le h'.value)
    (h'.fewest places n h.least_le h.value)
  exact ⟨rfl, Nat.cast_injective (h.value.symm.trans h'.value)⟩

/-- A whole number that does not end in zero needs all its places. -/
theorem fewestPlaces_of_mod_ne (hleast : least ≤ places) (hlast : n % 10 ≠ 0)
    (hvalue : q * 10 ^ places = n) : FewestPlaces least places n q := by
  refine ⟨hvalue, hleast, fun k m _ hm => ?_⟩
  by_contra hfewer
  obtain ⟨j, rfl⟩ := Nat.exists_eq_add_of_lt (not_le.mp hfewer)
  refine hlast ?_
  have hcast : (n : ℚ) = (10 * (m * 10 ^ j) : Nat) := by
    push_cast
    rw [← hvalue, ← hm]
    ring
  rw [Nat.cast_injective hcast]
  exact Nat.mul_mod_right _ _

/-- A value is written in one way. -/
theorem Written.eq (h : Written q text) (h' : Written q text') : text = text' := by
  cases h with
  | positional large small fewest digits =>
      cases h' with
      | positional _ _ fewest' digits' =>
          obtain ⟨rfl, rfl⟩ := fewest.eq fewest'
          rw [← withPlaces_iff.mp digits, ← withPlaces_iff.mp digits']
      | scientific size =>
          rcases size with hsmall | hlarge
          · exact absurd large (not_le.mpr hsmall)
          · exact absurd small (not_lt.mpr hlarge)
  | scientific size leading fewest digits =>
      cases h' with
      | positional large small =>
          rcases size with hsmall | hlarge
          · exact absurd large (not_le.mpr hsmall)
          · exact absurd small (not_lt.mpr hlarge)
      | scientific _ leading' fewest' digits' =>
          have hle := ten_zpow_lt_iff.mp (leading.1.trans_lt leading'.2)
          have hge := ten_zpow_lt_iff.mp (leading'.1.trans_lt leading.2)
          obtain rfl := le_antisymm (Int.lt_add_one_iff.mp hle) (Int.lt_add_one_iff.mp hge)
          obtain ⟨rfl, rfl⟩ := fewest.eq fewest'
          rw [← withPlaces_iff.mp digits, ← withPlaces_iff.mp digits']

/-- The exponent of the first digit of a decimal. -/
def Decimal.leading (d : Decimal) : ℤ :=
  d.exponent + (d.length - 1)

theorem Decimal.leading_bounds (hd : 0 < d.digits) :
    10 ^ d.leading ≤ d.value ∧ d.value < 10 ^ (d.leading + 1) := by
  obtain ⟨hlow, hhigh⟩ := value_bounds hd
  have hexponent : d.leading = d.exponent + d.length - 1 := by rw [leading, add_sub_assoc]
  rw [hexponent, sub_add_cancel]
  exact ⟨hlow, hhigh⟩

theorem Decimal.ten_zpow_le_value_iff (hd : 0 < d.digits) (e : ℤ) :
    10 ^ e ≤ d.value ↔ e ≤ d.leading := by
  obtain ⟨hlow, hhigh⟩ := leading_bounds hd
  constructor
  · intro h
    exact Int.lt_add_one_iff.mp (ten_zpow_lt_iff.mp (h.trans_lt hhigh))
  · intro h
    exact (ten_zpow_le_iff.mpr h).trans hlow

/-- Positional notation shows the places behind the last digit of the decimal, or one zero. -/
theorem Decimal.exists_positional_eq (hlast : d.digits % 10 ≠ 0) :
    ∃ places n, FewestPlaces 1 places n d.value ∧ d.positional = pointed places n := by
  rw [positional]
  split_ifs with hwhole
  · obtain ⟨e, he⟩ := Int.eq_ofNat_of_zero_le hwhole
    refine ⟨1, _, ⟨?_, le_rfl, fun k m hk _ => hk⟩, rfl⟩
    rw [value, he, zpow_natCast, Int.toNat_natCast]
    push_cast
    ring
  · obtain ⟨e, he⟩ := Int.eq_ofNat_of_zero_le (Int.neg_nonneg_of_nonpos (Int.le_of_not_le hwhole))
    have hplaces : d.exponent.natAbs = e := by omega
    refine ⟨_, _, fewestPlaces_of_mod_ne (by omega) hlast ?_, rfl⟩
    rw [value, hplaces, ← zpow_natCast, mul_assoc, ← ten_zpow_add, ← he, add_neg_cancel, zpow_zero,
      mul_one]

/-- Scientific notation shows all digits of the decimal, the first of them in front of the point. -/
theorem Decimal.scientific_eq (d : Decimal) :
    d.scientific = pointed (d.length - 1) d.digits ++ 'e' :: d.leading.repr.toList := by
  have hlength : (Nat.toDigits 10 d.digits).length = d.length := rfl
  have hpositive := d.length_pos
  have hpadded : paddedDigits (d.length - 1 + 1) d.digits = Nat.toDigits 10 d.digits := by
    rw [paddedDigits, hlength, Nat.sub_eq_zero_of_le (by omega)]
    rfl
  have hfirst : d.length - (d.length - 1) = 1 := by omega
  rw [pointed_eq, hpadded, hlength, hfirst]
  simp only [scientific, hlength, leading]
  congr 2
  exact if_congr (by omega) rfl rfl

theorem Decimal.fewestPlaces_leading (hlast : d.digits % 10 ≠ 0) :
    FewestPlaces 0 (d.length - 1) d.digits (d.value / 10 ^ d.leading) := by
  refine fewestPlaces_of_mod_ne (Nat.zero_le _) hlast ?_
  have hlength : ((d.length - 1 : Nat) : ℤ) = d.length - 1 := by
    have hpositive := d.length_pos
    omega
  rw [value, leading, ten_zpow_add, ← zpow_natCast, hlength]
  have hexponent := (ten_zpow_pos d.exponent).ne'
  have hplaces := (ten_zpow_pos (d.length - 1)).ne'
  field_simp

theorem Decimal.display_eq (d : Decimal) :
    d.display = if -4 ≤ d.leading ∧ d.leading < 16 then d.positional else d.scientific := by
  simp only [display, Bool.and_eq_true, decide_eq_true_eq]
  rfl

theorem Decimal.written_display (hlast : d.digits % 10 ≠ 0) : Written d.value d.display := by
  have hd : 0 < d.digits := Nat.pos_of_ne_zero fun hzero => hlast (by rw [hzero])
  have hlarge := ten_zpow_le_value_iff hd (-4)
  have hsmall := (ten_zpow_le_value_iff hd 16).not
  rw [display_eq]
  split_ifs with hsize
  · obtain ⟨places, n, hfewest, htext⟩ := exists_positional_eq hlast
    rw [htext]
    exact .positional (hlarge.mpr hsize.1) (not_le.mp (hsmall.mpr (not_le.mpr hsize.2))) hfewest
      (withPlaces_pointed places n)
  · rw [scientific_eq]
    refine .scientific ?_ (leading_bounds hd) (fewestPlaces_leading hlast) (withPlaces_pointed _ _)
    rw [← not_le, hlarge, ten_zpow_le_value_iff hd]
    omega

/-! ## Texts -/

/-- The shortest decimal does not end in zero. -/
theorem Shortest.digits_mod_ne (hfinite : x.isFinite = true) (hpos : 0 < x.units)
    (h : x.Shortest d) : d.digits % 10 ≠ 0 := by
  intro hzero
  obtain ⟨k, hk⟩ := Nat.dvd_of_mod_eq_zero hzero
  have hdigits := digits_pos_of_readsBack hfinite hpos h.readsBack
  have hkpos : 0 < k := by omega
  have hvalue : (⟨k, d.exponent + 1⟩ : Decimal).value = d.value := by
    rw [← Decimal.value_mul_ten, ← hk]
  have hfewest := h.fewest ⟨k, d.exponent + 1⟩ (hvalue.symm ▸ h.readsBack)
  have hlength : d.length = (⟨k, d.exponent + 1⟩ : Decimal).length + 1 := by
    rw [Decimal.length, hk, ← Nat.add_zero (10 * k),
      ← Nat.toDigits_append_toDigits (by decide) hkpos (by decide), List.length_append,
      Nat.toDigits_zero]
    rfl
  omega

/-- A number is displayed in one way. -/
theorem displays_iff : x.Displays text ↔ x.display.toList = text := by
  rw [display, String.toList_ofList]
  constructor
  · intro h
    cases h with
    | named named => simp [named_iff.mp named]
    | zero finite zero =>
        cases hsign : x.isNegative <;> simp [finite, zero, signed, hsign]
    | finite finite nonzero shortest written =>
        have hpos := Nat.pos_of_ne_zero nonzero
        have hfound := shortest_shortest finite hpos
        have hwritten := Decimal.written_display (hfound.digits_mod_ne finite hpos)
        rw [hfound.value_eq shortest] at hwritten
        simp [finite, nonzero, signed, hwritten.eq written]
  · rintro rfl
    cases hfinite : x.isFinite with
    | true =>
        by_cases hzero : x.units = 0
        · have hdisplay := Displays.zero hfinite hzero
          cases hsign : x.isNegative <;> simpa [hzero, signed, hsign] using hdisplay
        · have hpos := Nat.pos_of_ne_zero hzero
          have hfound := shortest_shortest hfinite hpos
          simpa [hzero, signed] using .finite hfinite hzero hfound
            (Decimal.written_display (hfound.digits_mod_ne hfinite hpos))
    | false => exact .named (named_iff.mpr ⟨hfinite, rfl⟩)

end LogRelay.Binary64
