import LogRelay.Proofs.Template.Rendering
import LogRelay.Proofs.Text.Numerals

/-!
# Integers in a template

A directive for an integer shows all its digits, whatever its flags and its width are. Zeros in
front of the digits do not change the number, and the spaces of a padded text stand together on one
side of it.
-/

namespace LogRelay

namespace Template

/-- The text is the integer in decimal: digits, behind a minus sign if the integer is negative. -/
inductive Spells : Int → List Char → Prop
  | natural {n : Nat} {digits : List Char} (denotes : Text.Denotes digits n) : Spells n digits
  | negative {n : Nat} {digits : List Char} (denotes : Text.Denotes digits (n + 1)) :
      Spells (.negSucc n) ('-' :: digits)

/-- How an integer is set in the columns that a header asks for. -/
structure Header.Sets (h : Header) (n : Int) (out : List Char) : Prop where
  /-- No column is missing, and there are more only if the digits and the sign need them. -/
  length_eq : out.length = max h.columns n.repr.length
  /-- Without its spaces the text is the integer. -/
  spells : Spells n (out.filter (· ≠ ' '))
  /-- Behind a dash all spaces are on the right. -/
  left : '-' ∈ h.flags → ∃ text k, ' ' ∉ text ∧ out = text ++ List.replicate k ' '
  /-- Behind a zero there are none. -/
  zeros : '-' ∉ h.flags → '0' ∈ h.flags → ' ' ∉ out
  /-- Behind other flags all spaces are on the left. -/
  right : '-' ∉ h.flags → '0' ∉ h.flags → ∃ text k, ' ' ∉ text ∧ out = List.replicate k ' ' ++ text

variable {n : Int} {h : Header} {conversion : Conversion} {text padded sign digits : List Char}

/-! ## Numerals with a sign -/

theorem spells_repr (n : Int) : Spells n n.repr.toList := by
  cases n with
  | ofNat n =>
      change Spells n n.repr.toList
      rw [Nat.toList_repr]
      exact .natural (Text.denotes_toDigits n)
  | negSucc n =>
      have hrepr : (Int.negSucc n).repr.toList = '-' :: (n + 1).repr.toList := by
        simp [Int.repr]
      rw [hrepr, Nat.toList_repr]
      exact .negative (Text.denotes_toDigits (n + 1))

theorem Spells.space_notMem (spells : Spells n text) : ' ' ∉ text := by
  cases spells with
  | natural denotes => exact fun hspace => nomatch denotes.isDigit ' ' hspace
  | negative denotes =>
      rw [List.mem_cons, not_or]
      exact ⟨by decide, fun hspace => nomatch denotes.isDigit ' ' hspace⟩

/-- Zeros between the sign and the digits do not change the integer. -/
theorem Spells.zeros (spells : Spells n (sign ++ digits))
    (minus : sign = ['-'] ∨ sign = [] ∧ digits.head? ≠ some '-') (k : Nat) :
    Spells n (sign ++ List.replicate k '0' ++ digits) := by
  rcases minus with rfl | ⟨rfl, minus⟩
  · cases spells with
    | natural denotes => cases denotes.isDigit '-' List.mem_cons_self
    | negative denotes => exact .negative (denotes.zeros_append k)
  · rw [List.nil_append] at spells ⊢
    cases spells with
    | natural denotes => exact .natural (denotes.zeros_append k)
    | negative denotes => exact absurd rfl minus

/-! ## Padding -/

theorem filter_spaces (k : Nat) : (List.replicate k ' ').filter (· ≠ ' ') = [] := by
  simp

theorem filter_of_space_notMem (hspace : ' ' ∉ text) : text.filter (· ≠ ' ') = text :=
  List.filter_eq_self.mpr fun c hc => by
    simp only [ne_eq, decide_not, Bool.not_eq_true', decide_eq_false_iff_not]
    rintro rfl
    exact hspace hc

theorem Header.Pads.length_eq (pads : h.Pads conversion text padded) :
    padded.length = max h.columns text.length := by
  cases pads with
  | left dash =>
      rw [List.length_append, List.length_replicate]
      omega
  | zeros dash zero number split minus =>
      subst split
      simp only [List.length_append, List.length_replicate]
      omega
  | right dash zero =>
      rw [List.length_append, List.length_replicate]
      omega

/-- An integer in decimal is set in its columns by padding. -/
theorem Header.Pads.sets (pads : h.Pads .integer n.repr.toList padded) : h.Sets n padded := by
  have hlength := pads.length_eq
  rw [String.length_toList] at hlength
  have hspells := spells_repr n
  have hspace := hspells.space_notMem
  cases pads with
  | left dash =>
      refine ⟨hlength, ?_, fun _ => ⟨_, _, hspace, rfl⟩, fun hdash => absurd dash hdash,
        fun hdash => absurd dash hdash⟩
      rw [List.filter_append, filter_spaces, List.append_nil, filter_of_space_notMem hspace]
      exact hspells
  | zeros dash zero number split minus =>
      have hzeros := (split ▸ hspells).zeros minus (h.columns - n.repr.toList.length)
      refine ⟨hlength, ?_, fun hdash => absurd hdash dash, fun _ _ => hzeros.space_notMem,
        fun _ hzero => absurd zero hzero⟩
      rw [filter_of_space_notMem hzeros.space_notMem]
      exact hzeros
  | right dash zero =>
      refine ⟨hlength, ?_, fun hdash => absurd hdash dash,
        fun _ hzero => by simpa using zero hzero, fun _ _ => ⟨_, _, hspace, rfl⟩⟩
      rw [List.filter_append, filter_spaces, List.nil_append, filter_of_space_notMem hspace]
      exact hspells

/-! ## Bytes -/

theorem utf8Size_of_isDigit {c : Char} (digit : c.isDigit = true) : c.utf8Size = 1 := by
  have hnine : '9'.val ≤ 127 := by decide
  simp only [Char.isDigit, Bool.and_eq_true, decide_eq_true_eq] at digit
  exact Char.utf8Size_eq_one_iff.mpr (UInt32.le_trans digit.2 hnine)

theorem Spells.utf8Size_eq_one (spells : Spells n text) : ∀ c ∈ text, c.utf8Size = 1 := by
  cases spells with
  | natural denotes => exact fun c hc => utf8Size_of_isDigit (denotes.isDigit c hc)
  | negative denotes =>
      exact List.forall_mem_cons.mpr ⟨rfl, fun c hc => utf8Size_of_isDigit (denotes.isDigit c hc)⟩

/-- An integer takes one byte a column. -/
theorem Header.Sets.size_eq (sets : h.Sets n text) : Text.size text = text.length := by
  refine Text.size_eq_length fun c hc => ?_
  by_cases hspace : c = ' '
  · rw [hspace]
    rfl
  · exact sets.spells.utf8Size_eq_one c (List.mem_filter.mpr ⟨hc, by simpa using hspace⟩)

/-! ## Rendering -/

/-- Zeros up to five columns. -/
def Header.zeroFive : Header :=
  { Header.ofWidth ['5'] (by simp) (by simp) with flags := ['0'], flags_valid := by simp }

/-- More columns than a numeral can ask for. -/
def Header.saturated : Header :=
  .ofWidth "18446744073709551616".toList (by simp) (by simp)

end Template

end LogRelay
