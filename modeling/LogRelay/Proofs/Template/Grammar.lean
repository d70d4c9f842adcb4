import Mathlib.Data.List.Forall2
import Mathlib.Tactic.Positivity
import Mathlib.Tactic.SplitIfs
import LogRelay.Proofs.Binary64.Places
import LogRelay.Proofs.Template.Framing
import LogRelay.Proofs.Value.Display

/-!
# The grammar of templates

A template is written as a sequence of pieces: characters that stand for themselves, percent signs
that are written with a directive, and requests for an argument. A directive is a percent sign,
flags, a width, a precision behind a point, and a letter; every part but the letter may be left out.
A zero in front of the width is a flag. What the pieces show of a list of arguments, and when there
is no room for it, is told here without reading any template.
-/

namespace LogRelay

namespace Value

/-- The integer is the value as a whole number: a truth value is one or zero, and a finite number
loses its fraction and is kept within the integers of 128 bits. -/
inductive Truncates : Value → Int → Prop
  | bool {b : Bool} : Truncates (.bool b) b.toNat
  | counts {v : Value} {n : Int} (counts : v.Counts n) : Truncates v n
  | float {x : Binary64} (finite : x.isFinite = true) :
      Truncates (.float x)
        (max (-2 ^ 127) (min (2 ^ 127 - 1)
          ((if x.isNegative then -x.units else x.units : Int).tdiv Binary64.unitsPerOne)))

/-- The binary64 number is the value as a number; an integer is rounded to the nearest one. -/
inductive Rounds : Value → Binary64 → Prop
  | bool {b : Bool} {x : Binary64} (nearest : Binary64.Nearest b.toNat x) : Rounds (.bool b) x
  | counts {v : Value} {n : Int} {x : Binary64} (counts : v.Counts n)
      (nearest : Binary64.Nearest n x) : Rounds v x
  | float {x : Binary64} : Rounds (.float x) x

end Value

namespace Template

/-- What stands between the percent sign and the letter of a directive. -/
structure Header where
  /-- The flags, in any order and repeated at will. -/
  flags : List Char
  /-- The digits of the width. -/
  width : List Char
  /-- The digits behind the point, if there is one. -/
  precision : Option (List Char)
  flags_valid : ∀ c ∈ flags, c ∈ ['-', '0', '+', ' ', '#']
  width_valid : ∀ c ∈ width, c.isDigit = true
  width_head : width.head? ≠ some '0'
  precision_valid : ∀ digits ∈ precision, ∀ c ∈ digits, c.isDigit = true

namespace Header

/-- The header that has a width and nothing else. -/
def ofWidth (width : List Char) (valid : ∀ c ∈ width, c.isDigit = true)
    (head : width.head? ≠ some '0') : Header :=
  ⟨[], width, none, by simp, valid, head, by simp⟩

/-- The header of a directive that only has a letter. -/
def bare : Header :=
  ofWidth [] (by simp) (by simp)

/-- The header as it is written. -/
def spelled (h : Header) : List Char :=
  h.flags ++ h.width ++ h.precision.elim [] ('.' :: ·)

/-- The least count of characters to be shown. -/
def columns (h : Header) : Nat :=
  min (Nat.ofDigitChars 10 h.width 0) (2 ^ 64 - 1)

/-- The precision as a number. -/
def places? (h : Header) : Option Nat :=
  h.precision.map fun digits => min (Nat.ofDigitChars 10 digits 0) (2 ^ 64 - 1)

/-- The count of decimal places. -/
def places (h : Header) : Nat :=
  h.places?.getD 6

/-- A text brought to the width: to the left if there is a dash, else behind zeros if it is a number
and there is a zero, else to the right. Zeros stand between a minus sign and the digits. -/
inductive Pads (h : Header) (conversion : Conversion) (text : List Char) : List Char → Prop
  | left (dash : '-' ∈ h.flags) :
      Pads h conversion text (text ++ List.replicate (h.columns - text.length) ' ')
  | zeros (dash : '-' ∉ h.flags) (zero : '0' ∈ h.flags)
      (number : conversion = .integer ∨ conversion = .decimal)
      {sign digits : List Char} (split : text = sign ++ digits)
      (minus : sign = ['-'] ∨ sign = [] ∧ digits.head? ≠ some '-') :
      Pads h conversion text (sign ++ List.replicate (h.columns - text.length) '0' ++ digits)
  | right (dash : '-' ∉ h.flags)
      (zero : '0' ∈ h.flags → conversion = .plain ∨ conversion = .quoted) :
      Pads h conversion text (List.replicate (h.columns - text.length) ' ' ++ text)

end Header

namespace Conversion

/-- The letters that ask for a form. -/
inductive Letter : Conversion → Char → Prop
  | s : Letter .plain 's'
  | r : Letter .quoted 'r'
  | d : Letter .integer 'd'
  | i : Letter .integer 'i'
  | f : Letter .decimal 'f'
  | F : Letter .decimal 'F'

/-- The value has the form, with the given count of decimal places. -/
def Admits (places : Nat) : Conversion → Value → Prop
  | .plain, _ | .quoted, _ => True
  | .integer, v => v.kind = .bool ∨ v.kind = .integer ∨ ∃ x, v = .float x ∧ x.isFinite = true
  | .decimal, v => (v.kind = .bool ∨ v.kind = .integer ∨ v.kind = .float) ∧ places ≤ 65535

/-- The text is the value in the form, with the given count of decimal places. -/
inductive Converts (places : Nat) (v : Value) : Conversion → List Char → Prop
  | plain {text : String} (displays : v.Displays false text) :
      Converts places v .plain text.toList
  | quoted {text : String} (displays : v.Displays true text) :
      Converts places v .quoted text.toList
  | integer {n : Int} (truncates : v.Truncates n) : Converts places v .integer n.repr.toList
  | decimal {x : Binary64} {text : List Char} (rounds : v.Rounds x) (small : places ≤ 65535)
      (fixes : x.Fixes places text) : Converts places v .decimal text

end Conversion

/-- What a directive asks of its argument. -/
structure Request where
  /-- The flags, the width and the precision. -/
  header : Header
  /-- The form. -/
  conversion : Conversion

/-- A piece of a template. -/
inductive Piece where
  /-- A character that stands for itself. -/
  | literal (c : Char) (plain : c ≠ '%')
  /-- A percent sign, written with a directive. -/
  | percent (header : Header)
  /-- A request for an argument. -/
  | argument (request : Request) (letter : Char) (names : request.conversion.Letter letter)

namespace Piece

/-- The piece as it is written. -/
def spelled : Piece → List Char
  | literal c _ => [c]
  | percent header => '%' :: (header.spelled ++ ['%'])
  | argument request letter _ => '%' :: (request.header.spelled ++ [letter])

/-- What the piece asks of an argument, if it takes one. -/
def request? : Piece → Option Request
  | literal _ _ | percent _ => none
  | argument request _ _ => some request

end Piece

/-- The template that the pieces are. -/
def spelling (pieces : List Piece) : List Char :=
  pieces.flatMap Piece.spelled

/-- There are as many arguments as requests, and each has the form that it is asked for. -/
def Fits (pieces : List Piece) (args : List Value) : Prop :=
  List.Forall₂ (fun request v => request.conversion.Admits request.header.places v)
    (pieces.filterMap Piece.request?) args

/-- The text that the pieces show of the arguments, each of which is shown once. -/
inductive Shows : List Piece → List Value → List Char → Prop
  | nil : Shows [] [] []
  | literal {pieces : List Piece} {args : List Value} {out : List Char} {c : Char} {plain : c ≠ '%'}
      (rest : Shows pieces args out) : Shows (.literal c plain :: pieces) args (c :: out)
  | percent {pieces : List Piece} {args : List Value} {out : List Char} {header : Header}
      (rest : Shows pieces args out) : Shows (.percent header :: pieces) args ('%' :: out)
  | argument {pieces : List Piece} {args : List Value} {out : List Char} {request : Request}
      {letter : Char} {names : request.conversion.Letter letter} {v : Value}
      {text padded : List Char}
      (converts : request.conversion.Converts request.header.places v text)
      (pads : request.header.Pads request.conversion text padded)
      (rest : Shows pieces args out) :
      Shows (.argument request letter names :: pieces) (v :: args) (padded ++ out)

/-- The template begins with pieces that fit the first arguments, and after them it asks for more
decimal places of a number than numbers can be written with. -/
inductive Oversized : List Char → List Value → Prop
  | decimal {pieces : List Piece} {args : List Value} {header : Header} {letter : Char} {v : Value}
      (fits : Fits pieces args) (names : Conversion.decimal.Letter letter)
      (number : v.kind = .bool ∨ v.kind = .integer ∨ v.kind = .float)
      (large : 65535 < header.places) (rest : List Char) (more : List Value) :
      Oversized (spelling pieces ++ '%' :: (header.spelled ++ letter :: rest)) (args ++ v :: more)

/-- The template begins with pieces that show more of the first arguments than there is room
for. -/
inductive Overflows (room : Nat) : List Char → List Value → Prop
  | pieces {pieces : List Piece} {args : List Value} {out : List Char}
      (shows : Shows pieces args out) (large : room < Text.size out) (rest : List Char)
      (more : List Value) : Overflows room (spelling pieces ++ rest) (args ++ more)

end Template

/-! ## Values in a form -/

theorem Binary64.truncate_eq_clamp (x : Binary64) :
    x.truncate = max (-2 ^ 127) (min (2 ^ 127 - 1)
      ((if x.isNegative then -x.units else x.units : Int).tdiv unitsPerOne)) := by
  have hnonneg : 0 ≤ (x.units / unitsPerOne : Int) := by positivity
  have htdiv : (x.units : Int).tdiv unitsPerOne = x.units / unitsPerOne :=
    Int.tdiv_eq_ediv_of_nonneg (by positivity)
  unfold truncate int128Max
  generalize (x.units / unitsPerOne : Int) = whole at hnonneg htdiv ⊢
  cases x.isNegative with
  | false => simp only [Bool.false_eq_true, if_false, htdiv]; omega
  | true => simp only [if_true, Int.neg_tdiv, htdiv]; omega

namespace Value

variable {v : Value}

theorem integer?_eq_some_iff {n : Int} : v.integer? = some n ↔ v.Truncates n := by
  constructor
  · intro h
    cases v with
    | bool b =>
        cases h
        exact .bool
    | int i =>
        cases h
        exact .counts .int
    | uint u =>
        cases h
        exact .counts .uint
    | float x =>
        simp only [integer?] at h
        split_ifs at h with hfinite
        cases h
        rw [Binary64.truncate_eq_clamp]
        exact .float hfinite
    | _ => cases h
  · intro h
    cases h with
    | bool => rfl
    | counts counts =>
        cases counts with
        | int => rfl
        | uint => rfl
    | float finite => rw [integer?, if_pos finite, Binary64.truncate_eq_clamp]

theorem Counts.natAbs_lt {n : Int} (counts : v.Counts n) : n.natAbs < 2 ^ 64 := by
  cases counts with
  | @int i =>
      have hlow := i.le_toInt
      have hhigh := i.toInt_lt
      omega
  | @uint u =>
      have hhigh := u.toNat_lt
      omega

theorem number?_eq_some_iff {x : Binary64} : v.number? = some x ↔ v.Rounds x := by
  constructor
  · intro h
    cases v with
    | bool b =>
        cases h
        exact .bool ((Binary64.nearest_iff (by cases b <;> decide)).mpr rfl)
    | int i =>
        cases h
        exact .counts .int ((Binary64.nearest_iff Counts.int.natAbs_lt).mpr rfl)
    | uint u =>
        cases h
        exact .counts .uint ((Binary64.nearest_iff Counts.uint.natAbs_lt).mpr rfl)
    | float x =>
        cases h
        exact .float
    | _ => cases h
  · intro h
    cases h with
    | @bool b x nearest =>
        exact congrArg some ((Binary64.nearest_iff (by cases b <;> decide)).mp nearest)
    | counts counts nearest =>
        have hx := (Binary64.nearest_iff counts.natAbs_lt).mp nearest
        cases counts with
        | int => exact congrArg some hx
        | uint => exact congrArg some hx
    | float => rfl

theorem exists_integer?_eq_some_iff :
    (∃ n, v.integer? = some n) ↔
      v.kind = .bool ∨ v.kind = .integer ∨ ∃ x, v = .float x ∧ x.isFinite = true := by
  cases v <;> simp [integer?, kind]

theorem exists_number?_eq_some_iff :
    (∃ x, v.number? = some x) ↔ v.kind = .bool ∨ v.kind = .integer ∨ v.kind = .float := by
  cases v <;> simp [number?, kind]

end Value

namespace Template

namespace Conversion

variable {conversion : Conversion} {precision : Option Nat} {places : Nat} {v : Value}
  {text : List Char} {c : Char}

theorem ofLetter?_eq_some_iff : ofLetter? c = some conversion ↔ conversion.Letter c := by
  constructor
  · intro h
    simp only [ofLetter?, Bool.or_eq_true, decide_eq_true_eq] at h
    split_ifs at h with hs hr hinteger hdecimal
    · cases h
      subst hs
      exact .s
    · cases h
      subst hr
      exact .r
    · cases h
      rcases hinteger with rfl | rfl
      · exact .d
      · exact .i
    · cases h
      rcases hdecimal with rfl | rfl
      · exact .f
      · exact .F
  · intro h
    cases h <;> rfl

theorem isNumeric_eq_true_iff :
    conversion.isNumeric = true ↔ conversion = .integer ∨ conversion = .decimal := by
  cases conversion <;> simp [isNumeric]

theorem isNumeric_eq_false_iff :
    conversion.isNumeric = false ↔ conversion = .plain ∨ conversion = .quoted := by
  cases conversion <;> simp [isNumeric]

theorem convert_eq_ok_iff :
    conversion.convert precision v = .ok text ↔ conversion.Converts (precision.getD 6) v text := by
  constructor
  · intro h
    cases conversion with
    | plain =>
        cases h
        exact .plain (Value.displays_iff.mpr rfl)
    | quoted =>
        cases h
        exact .quoted (Value.displays_iff.mpr rfl)
    | integer =>
        simp only [convert] at h
        split at h
        · next n hn =>
          cases h
          exact .integer (Value.integer?_eq_some_iff.mp hn)
        · cases h
    | decimal =>
        simp only [convert] at h
        split at h
        · next x hx =>
          split_ifs at h with hlarge
          cases h
          exact .decimal (Value.number?_eq_some_iff.mp hx) (Nat.le_of_not_lt hlarge)
            (Binary64.fixes_iff.mpr rfl)
        · cases h
  · intro h
    cases h with
    | plain displays => rw [← Value.displays_iff.mp displays, convert, Value.display]
    | quoted displays => rw [← Value.displays_iff.mp displays, convert, Value.repr]
    | integer truncates => simp only [convert, Value.integer?_eq_some_iff.mpr truncates]
    | decimal rounds small fixes =>
        rw [← Binary64.fixes_iff.mp fixes]
        simp only [convert, Value.number?_eq_some_iff.mpr rounds]
        exact if_neg (Nat.not_lt.mpr small)

theorem convert_eq_oversized (number : v.kind = .bool ∨ v.kind = .integer ∨ v.kind = .float)
    (large : 65535 < precision.getD 6) :
    Conversion.decimal.convert precision v = .error .oversizedPrecision := by
  obtain ⟨x, hx⟩ := Value.exists_number?_eq_some_iff.mpr number
  simp only [convert, hx]
  exact if_pos large

/-- A value is converted, or has too many decimal places, or does not have the form. -/
theorem convert_cases (conversion : Conversion) (precision : Option Nat) (v : Value) :
    (∃ text, conversion.convert precision v = .ok text) ∨
      (conversion = .decimal ∧ (v.kind = .bool ∨ v.kind = .integer ∨ v.kind = .float) ∧
        65535 < precision.getD 6) ∨
      conversion.convert precision v = .error .mismatch := by
  cases conversion with
  | plain => exact .inl ⟨_, rfl⟩
  | quoted => exact .inl ⟨_, rfl⟩
  | integer => cases hinteger : v.integer? <;> simp [convert, hinteger]
  | decimal =>
      cases hnumber : v.number? with
      | none => exact .inr (.inr (by simp only [convert, hnumber]))
      | some x =>
          by_cases hlarge : 65535 < precision.getD 6
          · exact .inr (.inl ⟨rfl, Value.exists_number?_eq_some_iff.mp ⟨x, hnumber⟩, hlarge⟩)
          · refine .inl ⟨(x.fixed (precision.getD 6)).toList, ?_⟩
            simp only [convert, hnumber]
            exact if_neg hlarge

theorem exists_converts_iff : (∃ text, conversion.Converts places v text) ↔
    conversion.Admits places v := by
  cases conversion with
  | plain => exact ⟨fun _ => trivial, fun _ => ⟨_, .plain (Value.displays_iff.mpr rfl)⟩⟩
  | quoted => exact ⟨fun _ => trivial, fun _ => ⟨_, .quoted (Value.displays_iff.mpr rfl)⟩⟩
  | integer =>
      rw [Admits, ← Value.exists_integer?_eq_some_iff]
      constructor
      · rintro ⟨_, h⟩
        cases h with
        | integer truncates => exact ⟨_, Value.integer?_eq_some_iff.mpr truncates⟩
      · rintro ⟨n, h⟩
        exact ⟨_, .integer (Value.integer?_eq_some_iff.mp h)⟩
  | decimal =>
      rw [Admits, ← Value.exists_number?_eq_some_iff]
      constructor
      · rintro ⟨_, h⟩
        cases h with
        | decimal rounds small => exact ⟨⟨_, Value.number?_eq_some_iff.mpr rounds⟩, small⟩
      · rintro ⟨⟨x, h⟩, small⟩
        exact ⟨_, .decimal (Value.number?_eq_some_iff.mp h) small (Binary64.fixes_iff.mpr rfl)⟩

end Conversion

namespace Header

variable {h : Header} {numeric : Bool} {conversion : Conversion} {text padded : List Char}

/-- The header as rendering collects it. -/
def spec (h : Header) : Spec :=
  ⟨decide ('-' ∈ h.flags), decide ('0' ∈ h.flags), h.columns, h.places?⟩

theorem pad_left (dash : '-' ∈ h.flags) :
    h.spec.padded numeric text = text ++ List.replicate (h.columns - text.length) ' ' := by
  simp [Spec.padded, spec, dash]

theorem pad_zeros {sign digits : List Char} (dash : '-' ∉ h.flags) (zero : '0' ∈ h.flags)
    (minus : sign = ['-'] ∨ sign = [] ∧ digits.head? ≠ some '-') :
    h.spec.padded true (sign ++ digits) =
      sign ++ List.replicate (h.columns - (sign ++ digits).length) '0' ++ digits := by
  rcases minus with rfl | ⟨rfl, minus⟩
  · simp [Spec.padded, spec, dash, zero]
  · cases digits with
    | nil => simp [Spec.padded, spec, dash, zero]
    | cons c digits =>
        have hc : c ≠ '-' := fun hc => minus (congrArg some hc)
        simp [Spec.padded, spec, dash, zero, hc]

theorem pad_right (dash : '-' ∉ h.flags) (zero : '0' ∈ h.flags → numeric = false) :
    h.spec.padded numeric text = List.replicate (h.columns - text.length) ' ' ++ text := by
  have hleft : h.spec.leftAlign = false := decide_eq_false dash
  have hzeros : (h.spec.zeroPad && numeric) = false := by simpa [spec] using zero
  simp only [Spec.padded, hleft, hzeros, Bool.false_eq_true, if_false]
  rfl

theorem exists_sign (text : List Char) :
    ∃ sign digits, text = sign ++ digits ∧
      (sign = ['-'] ∨ sign = [] ∧ digits.head? ≠ some '-') := by
  by_cases hminus : text.head? = some '-'
  · obtain ⟨digits, rfl⟩ := List.head?_eq_some_iff.mp hminus
    exact ⟨['-'], digits, rfl, .inl rfl⟩
  · exact ⟨[], text, rfl, .inr ⟨rfl, hminus⟩⟩

theorem pads_iff :
    h.Pads conversion text padded ↔ h.spec.padded conversion.isNumeric text = padded := by
  constructor
  · intro hpads
    cases hpads with
    | left dash => exact pad_left dash
    | zeros dash zero number split minus =>
        subst split
        rw [Conversion.isNumeric_eq_true_iff.mpr number]
        exact pad_zeros dash zero minus
    | right dash zero =>
        exact pad_right dash fun hzero => Conversion.isNumeric_eq_false_iff.mpr (zero hzero)
  · rintro rfl
    by_cases dash : '-' ∈ h.flags
    · rw [pad_left dash]
      exact .left dash
    · by_cases zero : '0' ∈ h.flags → conversion.isNumeric = false
      · rw [pad_right dash zero]
        exact .right dash fun hzero => Conversion.isNumeric_eq_false_iff.mp (zero hzero)
      · obtain ⟨zero, number⟩ := Classical.not_imp.mp zero
        rw [Bool.not_eq_false] at number
        obtain ⟨sign, digits, rfl, minus⟩ := exists_sign text
        rw [number, pad_zeros dash zero minus]
        exact .zeros dash zero (Conversion.isNumeric_eq_true_iff.mp number) rfl minus

end Header

/-- Pieces show something of exactly the arguments that fit them. -/
theorem exists_shows_iff_fits {pieces : List Piece} {args : List Value} :
    (∃ out, Shows pieces args out) ↔ Fits pieces args := by
  constructor
  · rintro ⟨out, h⟩
    induction h with
    | nil => exact .nil
    | literal _ ih => exact ih
    | percent _ ih => exact ih
    | argument converts _ _ ih => exact .cons (Conversion.exists_converts_iff.mp ⟨_, converts⟩) ih
  · intro h
    induction pieces generalizing args with
    | nil =>
        cases h
        exact ⟨_, .nil⟩
    | cons piece pieces ih =>
        cases piece with
        | literal c plain =>
            obtain ⟨out, hout⟩ := ih h
            exact ⟨_, .literal hout⟩
        | percent header =>
            obtain ⟨out, hout⟩ := ih h
            exact ⟨_, .percent hout⟩
        | argument request letter names =>
            cases h with
            | cons admits rest =>
                obtain ⟨out, hout⟩ := ih rest
                obtain ⟨text, htext⟩ := Conversion.exists_converts_iff.mpr admits
                exact ⟨_, .argument htext (Header.pads_iff.mpr rfl) hout⟩

end Template

end LogRelay
