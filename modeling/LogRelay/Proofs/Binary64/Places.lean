import LogRelay.Binary64.Text
import LogRelay.Proofs.Binary64.Rounding
import LogRelay.Proofs.Text.Numerals

/-!
# Numbers with decimal places

The text of a number with a count of decimal places, told by what it denotes: its digits, without
the point, are those of the nearest whole number of the last place, as many of them as there are
places stand behind the point, and in front of it there is no zero that is not needed.
-/

namespace LogRelay.Binary64

/-- The text is a whole number of `10 ^ (-places)`: the whole part, and behind a point the places,
if there are any. -/
inductive WithPlaces (places n : Nat) : List Char → Prop
  | digits {whole fraction : List Char} (denotes : Text.Denotes (whole ++ fraction) n)
      (count : fraction.length = places) (nonempty : whole ≠ [])
      (shortest : 1 < whole.length → whole.head? ≠ some '0') :
      WithPlaces places n (whole ++ if places = 0 then [] else '.' :: fraction)

/-- The text is the name of a number that is not finite. -/
inductive Named (x : Binary64) : List Char → Prop
  | nan (nan : x.isNaN = true) : Named x "NaN".toList
  | infinite (finite : x.isFinite = false) (nan : x.isNaN = false) :
      Named x (if x.isNegative then "-inf".toList else "inf".toList)

/-- The text is the number, rounded to the nearest with the given count of decimal places, or its
name. -/
inductive Fixes (x : Binary64) (places : Nat) : List Char → Prop
  | named {text : List Char} (named : x.Named text) : Fixes x places text
  | finite {n : Nat} {text : List Char} (finite : x.isFinite = true)
      (nearest : NearestWhole (x.units * 10 ^ places) unitsPerOne n)
      (digits : WithPlaces places n text) :
      Fixes x places (if x.isNegative then '-' :: text else text)

variable {x : Binary64} {places n : Nat} {text whole fraction : List Char}

/-! ## Digits -/

theorem denotes_paddedDigits (width n : Nat) : Text.Denotes (paddedDigits width n) n :=
  (Text.denotes_toDigits n).zeros_append _

theorem length_paddedDigits (width n : Nat) :
    (paddedDigits width n).length = max width (Nat.toDigits 10 n).length := by
  simp only [paddedDigits, List.length_append, List.length_replicate]
  omega

/-- More digits than the width are those of the shortest numeral. -/
theorem head?_paddedDigits_ne {width : Nat} (hwidth : 0 < width)
    (h : width < (paddedDigits width n).length) : (paddedDigits width n).head? ≠ some '0' := by
  rw [length_paddedDigits] at h
  rw [paddedDigits, Nat.sub_eq_zero_of_le (by omega)]
  exact Text.head?_toDigits_ne (by omega)

/-- The whole part and the places of a number are its digits, padded to one digit more than there
are places. -/
theorem append_eq_paddedDigits (denotes : Text.Denotes (whole ++ fraction) n)
    (nonempty : whole ≠ []) (shortest : 1 < whole.length → whole.head? ≠ some '0') :
    whole ++ fraction = paddedDigits (fraction.length + 1) n := by
  obtain ⟨k, hk⟩ := denotes.eq_zeros_append
  have hlength := congrArg List.length hk
  rw [List.length_append, List.length_append, List.length_replicate] at hlength
  have hpos := List.length_pos_iff.mpr nonempty
  have hzeros : k = fraction.length + 1 - (Nat.toDigits 10 n).length := by
    by_cases hlong : 1 < whole.length
    · have hk0 : k = 0 := by
        by_contra hne
        obtain ⟨k, rfl⟩ := Nat.exists_eq_succ_of_ne_zero hne
        obtain ⟨c, tail, rfl⟩ := List.exists_cons_of_ne_nil nonempty
        have hhead : c = '0' := (List.cons.inj hk).1
        exact shortest hlong (congrArg some hhead)
      omega
    · omega
  rw [hk, hzeros]
  rfl

theorem pointed_eq (places n : Nat) :
    pointed places n =
      (paddedDigits (places + 1) n).take ((paddedDigits (places + 1) n).length - places) ++
        if places = 0 then []
        else '.' :: (paddedDigits (places + 1) n).drop
          ((paddedDigits (places + 1) n).length - places) := by
  simp only [pointed]
  split_ifs with hplaces
  · rw [hplaces, Nat.sub_zero, List.take_length, List.append_nil]
  · rfl

theorem withPlaces_pointed (places n : Nat) : WithPlaces places n (pointed places n) := by
  have hlength := length_paddedDigits (places + 1) n
  have hsplit := List.take_append_drop
    ((paddedDigits (places + 1) n).length - places) (paddedDigits (places + 1) n)
  rw [pointed_eq]
  refine .digits (hsplit.symm ▸ denotes_paddedDigits (places + 1) n) ?_ ?_ ?_
  · rw [List.length_drop]
    omega
  · refine List.ne_nil_of_length_pos ?_
    rw [List.length_take]
    omega
  · intro hlong
    rw [List.length_take] at hlong
    rw [List.head?_take, if_neg (by omega)]
    exact head?_paddedDigits_ne (Nat.succ_pos places) (by omega)

theorem withPlaces_iff : WithPlaces places n text ↔ pointed places n = text := by
  constructor
  · intro h
    cases h with
    | @digits whole fraction denotes count nonempty shortest =>
        have hdigits := append_eq_paddedDigits denotes nonempty shortest
        rw [count] at hdigits
        rw [pointed_eq, ← hdigits, List.length_append, count, Nat.add_sub_cancel, List.take_left,
          List.drop_left]
  · rintro rfl
    exact withPlaces_pointed places n

/-! ## Texts -/

theorem isFinite_eq_false_of_isNaN (h : x.isNaN = true) : x.isFinite = false := by
  simp only [isNaN, Bool.and_eq_true, beq_iff_eq] at h
  simp [isFinite, h.1]

theorem named_iff : x.Named text ↔ x.isFinite = false ∧ x.specialText = text := by
  constructor
  · intro h
    cases h with
    | nan nan => exact ⟨isFinite_eq_false_of_isNaN nan, by simp [specialText, nan]⟩
    | infinite finite nan => exact ⟨finite, by simp [specialText, nan, signed]⟩
  · rintro ⟨hfinite, rfl⟩
    cases hnan : x.isNaN with
    | true =>
        have hname : x.specialText = "NaN".toList := by simp [specialText, hnan]
        exact hname ▸ .nan hnan
    | false =>
        have hname : x.specialText = if x.isNegative then "-inf".toList else "inf".toList := by
          simp [specialText, hnan, signed]
        exact hname ▸ .infinite hfinite hnan

/-- The number is written with decimal places in one way. -/
theorem fixes_iff : x.Fixes places text ↔ (x.fixed places).toList = text := by
  rw [fixed, String.toList_ofList]
  constructor
  · intro h
    cases h with
    | named named => simp [named_iff.mp named]
    | finite finite nearest digits =>
        rw [(nearestWhole_iff unitsPerOne_pos).mp nearest, withPlaces_iff.mp digits]
        simp [finite, signed]
  · rintro rfl
    cases hfinite : x.isFinite with
    | true =>
        exact .finite hfinite (nearestWhole_roundHalfEven _ unitsPerOne_pos)
          (withPlaces_pointed places _)
    | false => exact .named (named_iff.mpr ⟨hfinite, rfl⟩)

end LogRelay.Binary64
