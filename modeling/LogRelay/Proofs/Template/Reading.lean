import LogRelay.Proofs.Template.Grammar

/-!
# Templates are read as their grammar says

The reader takes flags, digits and a point for as long as it finds them. Every text behind a percent
sign therefore begins with one header that the character after it cannot continue, and a template
falls apart into literals and directives from its first character on. Rendering shows what the
pieces of the template show, if they fit the arguments and there is room for it, and fails
otherwise.
-/

namespace LogRelay.Template

variable {h : Header} {spec : Spec} {c : Char} {t : List Char} {args rest : List Value}
  {room : Nat} {shown text out : List Char} {piece : Piece} {pieces : List Piece}

/-! ## Numerals -/

theorem appendDigit_min (n : Nat) (c : Char) :
    appendDigit (min n numeralLimit) c = min (n * 10 + (c.toNat - '0'.toNat)) numeralLimit := by
  unfold appendDigit
  omega

theorem foldl_appendDigit (n : Nat) (digits : List Char) :
    digits.foldl appendDigit (min n numeralLimit) =
      min (Nat.ofDigitChars 10 digits n) numeralLimit := by
  induction digits generalizing n with
  | nil => rw [List.foldl_nil, Nat.ofDigitChars_nil]
  | cons c digits ih =>
      rw [List.foldl_cons, appendDigit_min, ih, Nat.ofDigitChars_cons, Nat.mul_comm n]

/-! ## Headers -/

theorem isFlag_iff : isFlag c = true ↔ c ∈ ['-', '0', '+', ' ', '#'] := by
  simp [isFlag, or_assoc]

theorem foldl_addFlag (flags : List Char) :
    flags.foldl Spec.addFlag spec =
      { spec with
        leftAlign := spec.leftAlign || decide ('-' ∈ flags)
        zeroPad := spec.zeroPad || decide ('0' ∈ flags) } := by
  induction flags generalizing spec with
  | nil => simp
  | cons c flags ih =>
      rw [List.foldl_cons, ih, Spec.addFlag]
      split_ifs with hdash hzero
      · simp [hdash]
      · simp [hzero]
      · simp [Ne.symm hdash, Ne.symm hzero]

theorem foldlM_flags {flags : List Char} (valid : ∀ c ∈ flags, c ∈ ['-', '0', '+', ' ', '#']) :
    flags.foldlM step ⟨.flags spec, shown, room, args⟩ =
      .ok ⟨.flags (flags.foldl Spec.addFlag spec), shown, room, args⟩ := by
  induction flags generalizing spec with
  | nil => rfl
  | cons c flags ih =>
      obtain ⟨hhead, htail⟩ := List.forall_mem_cons.mp valid
      rw [List.foldlM_cons]
      simp only [step, isFlag_iff.mpr hhead, if_true]
      exact ih htail

theorem foldlM_width {digits : List Char} (valid : ∀ c ∈ digits, c.isDigit = true) :
    digits.foldlM step ⟨.width spec, shown, room, args⟩ =
      .ok ⟨.width { spec with width := digits.foldl appendDigit spec.width }, shown, room,
        args⟩ := by
  induction digits generalizing spec with
  | nil => rfl
  | cons c digits ih =>
      obtain ⟨hhead, htail⟩ := List.forall_mem_cons.mp valid
      rw [List.foldlM_cons]
      simp only [step, stepWidth, hhead, if_true]
      exact ih htail

theorem foldlM_precision {digits : List Char} {n : Nat}
    (valid : ∀ c ∈ digits, c.isDigit = true) :
    digits.foldlM step ⟨.precision { spec with precision := some n }, shown, room, args⟩ =
      .ok ⟨.precision { spec with precision := some (digits.foldl appendDigit n) }, shown,
        room, args⟩ := by
  induction digits generalizing n with
  | nil => rfl
  | cons c digits ih =>
      obtain ⟨hhead, htail⟩ := List.forall_mem_cons.mp valid
      rw [List.foldlM_cons]
      simp only [step, stepPrecision, hhead, if_true]
      exact ih htail

namespace Header

/-- The spec of the flags and the width. -/
def widthSpec (h : Header) : Spec :=
  { h.spec with precision := none }

/-- Where the reader stands behind the width. -/
def widthPlace (h : Header) : Place :=
  if h.width = [] then .flags h.widthSpec else .width h.widthSpec

/-- Where the reader stands behind the header. -/
def place (h : Header) : Place :=
  if h.precision = none then h.widthPlace else .precision h.spec

/-- The character cannot continue the header. -/
def EndsAt (h : Header) (c : Char) : Prop :=
  c.isDigit = false ∧ (h.precision = none → c ≠ '.' ∧ (h.width = [] → isFlag c = false))

/-- A digit that is no zero does not stand among the flags. -/
theorem isFlag_eq_false_of_isDigit (digit : c.isDigit = true) (nonzero : c ≠ '0') :
    isFlag c = false := by
  rw [← Bool.not_eq_true, isFlag_iff]
  intro hflag
  simp only [List.mem_cons, List.not_mem_nil, or_false] at hflag
  rcases hflag with rfl | rfl | rfl | rfl | rfl <;> simp at digit nonzero

theorem foldlM_widthPlace :
    (h.flags ++ h.width).foldlM step ⟨.flags {}, shown, room, args⟩ =
      .ok ⟨h.widthPlace, shown, room, args⟩ := by
  have hwidth : h.width.foldl appendDigit 0 = h.columns := foldl_appendDigit 0 h.width
  rw [List.foldlM_append, foldlM_flags h.flags_valid, foldl_addFlag, widthPlace, widthSpec, spec,
    ← hwidth]
  simp only [Bool.false_or]
  cases hdigits : h.width with
  | nil => rfl
  | cons c digits =>
      obtain ⟨hdigit, hrest⟩ := List.forall_mem_cons.mp (hdigits ▸ h.width_valid)
      have hnonzero : c ≠ '0' := fun hc => h.width_head (hdigits ▸ congrArg some hc)
      have hhead := isFlag_eq_false_of_isDigit hdigit hnonzero
      change step _ c >>= (fun p => digits.foldlM step p) = _
      simp only [step, stepWidth, hhead, hdigit, Bool.false_eq_true, if_true, if_false]
      exact foldlM_width hrest

theorem foldlM_spelled :
    h.spelled.foldlM step ⟨.flags {}, shown, room, args⟩ = .ok ⟨h.place, shown, room, args⟩ := by
  rw [spelled, List.foldlM_append, foldlM_widthPlace, place]
  cases hprecision : h.precision with
  | none => rfl
  | some digits =>
      have hplaces : h.places? = some (digits.foldl appendDigit 0) := by
        rw [places?, hprecision]
        exact congrArg some (foldl_appendDigit 0 digits).symm
      have hpoint : step ⟨h.widthPlace, shown, room, args⟩ '.' =
          .ok ⟨.precision { h.widthSpec with precision := some 0 }, shown, room, args⟩ := by
        unfold widthPlace
        split_ifs <;> rfl
      change step _ '.' >>= (fun p => digits.foldlM step p) = _
      rw [hpoint]
      change digits.foldlM step _ = _
      rw [foldlM_precision (h.precision_valid digits hprecision), ← hplaces]
      rfl

theorem place_ne_plain : h.place ≠ .plain := by
  unfold place widthPlace
  split_ifs <;> exact Place.noConfusion

theorem step_place (ends : h.EndsAt c) :
    step ⟨h.place, shown, room, args⟩ c =
      finishDirective ⟨h.place, shown, room, args⟩ h.spec c := by
  obtain ⟨hdigit, hends⟩ := ends
  unfold place
  split_ifs with hprecision
  · obtain ⟨hpoint, hflag⟩ := hends hprecision
    have hspec : h.widthSpec = h.spec := by simp [widthSpec, spec, places?, hprecision]
    unfold widthPlace
    split_ifs with hwidth
    · simp [step, stepWidth, hflag hwidth, hdigit, hpoint, hspec]
    · simp [step, stepWidth, hdigit, hpoint, hspec]
  · simp [step, stepPrecision, hdigit]

/-- A text is a run of characters of one kind and what cannot continue it. -/
theorem exists_run (p : Char → Bool) (t : List Char) :
    ∃ run rest, t = run ++ rest ∧ (∀ c ∈ run, p c = true) ∧ ∀ c ∈ rest.head?, p c = false := by
  induction t with
  | nil => exact ⟨[], [], rfl, by simp, by simp⟩
  | cons c t ih =>
      cases hc : p c with
      | false => exact ⟨[], c :: t, rfl, by simp, by simpa using hc⟩
      | true =>
          obtain ⟨run, rest, rfl, hrun, hrest⟩ := ih
          exact ⟨c :: run, rest, rfl, List.forall_mem_cons.mpr ⟨hc, hrun⟩, hrest⟩

/-- A text is a header and what cannot continue it. -/
theorem exists_spelled_append (t : List Char) :
    ∃ (h : Header) (rest : List Char), t = h.spelled ++ rest ∧ ∀ c ∈ rest.head?, h.EndsAt c := by
  obtain ⟨flags, behind, rfl, hflags, hnoflag⟩ := exists_run isFlag t
  obtain ⟨width, tail, rfl, hwidth, hnodigit⟩ := exists_run Char.isDigit behind
  have hhead : width.head? ≠ some '0' := by
    intro hzero
    obtain ⟨digits, rfl⟩ := List.head?_eq_some_iff.mp hzero
    cases hnoflag '0' rfl
  by_cases hpoint : tail.head? = some '.'
  · obtain ⟨tail, rfl⟩ := List.head?_eq_some_iff.mp hpoint
    obtain ⟨digits, rest, rfl, hdigits, hends⟩ := exists_run Char.isDigit tail
    refine ⟨⟨flags, width, some digits, fun c hc => isFlag_iff.mp (hflags c hc), hwidth, hhead, ?_⟩,
      rest, by simp [spelled], fun c hc => ⟨hends c hc, fun hnone => nomatch hnone⟩⟩
    simpa using hdigits
  · refine ⟨⟨flags, width, none, fun c hc => isFlag_iff.mp (hflags c hc), hwidth, hhead, by simp⟩,
      tail, by simp [spelled], fun c hc => ⟨hnodigit c hc, fun _ => ⟨?_, ?_⟩⟩⟩
    · rintro rfl
      exact hpoint hc
    · rintro rfl
      exact hnoflag c hc

end Header

/-! ## Directives -/

/-- Induction over a template by its literals and directives; a directive may be cut off. -/
@[elab_as_elim]
theorem reading_induction {motive : List Char → Prop} (nil : motive [])
    (literal : ∀ c t, c ≠ '%' → motive t → motive (c :: t))
    (unfinished : ∀ h : Header, motive ('%' :: h.spelled))
    (directive : ∀ (h : Header) c t, h.EndsAt c → motive t → motive ('%' :: (h.spelled ++ c :: t)))
    (t : List Char) : motive t := by
  induction hlength : t.length using Nat.strong_induction_on generalizing t with
  | _ n ih =>
      cases t with
      | nil => exact nil
      | cons c t =>
          by_cases hpercent : c = '%'
          · subst hpercent
            obtain ⟨h, rest, rfl, hends⟩ := Header.exists_spelled_append t
            cases rest with
            | nil =>
                rw [List.append_nil]
                exact unfinished h
            | cons c rest =>
                refine directive h c rest (hends c rfl) (ih rest.length ?_ rest rfl)
                simp at hlength
                omega
          · exact literal c t hpercent (ih t.length (by simp at hlength; omega) t rfl)

/-! ## What a piece shows -/

theorem renderWithin_literal (plain : c ≠ '%') :
    renderWithin room (c :: t) args = inFront room [c] fun room => renderWithin room t args := by
  have hstep : step (start room args) c = (start room args).put [c] := by
    simp only [step, start, plain, if_false]
  rw [← read_put, ← hstep, ← bind_assoc]
  rfl

theorem renderWithin_unfinished (h : Header) (room : Nat) (args : List Value) :
    renderWithin room ('%' :: h.spelled) args = .error .mismatch := by
  change h.spelled.foldlM step ⟨.flags {}, [], room, args⟩ >>= Progress.finish = _
  rw [Header.foldlM_spelled]
  change Progress.finish _ = _
  rw [Progress.finish, if_neg]
  simp [Header.place_ne_plain]

theorem renderWithin_directive (ends : h.EndsAt c) :
    renderWithin room ('%' :: (h.spelled ++ c :: t)) args =
      finishDirective (start room args) h.spec c >>= fun p =>
        t.foldlM step p >>= Progress.finish := by
  change (h.spelled ++ c :: t).foldlM step ⟨.flags {}, [], room, args⟩ >>= Progress.finish = _
  rw [List.foldlM_append, Header.foldlM_spelled]
  change (step _ c >>= fun p => t.foldlM step p) >>= Progress.finish = _
  rw [Header.step_place ends, bind_assoc]
  rfl

theorem finishDirective_letter {conversion : Conversion} {v : Value}
    (names : conversion.Letter c) :
    finishDirective (start room (v :: rest)) spec c =
      conversion.convert spec.precision v >>= fun text =>
        (start room rest).put (spec.padded conversion.isNumeric text) := by
  have hpercent : c ≠ '%' := by
    rintro rfl
    cases names
  have hletter := Conversion.ofLetter?_eq_some_iff.mpr names
  simp only [finishDirective, start, hpercent, hletter, if_false, Progress.pad_eq_put]
  cases conversion.convert spec.precision v with
  | error stop => rfl
  | ok text => rfl

theorem endsAt_percent (h : Header) : h.EndsAt '%' :=
  ⟨rfl, fun _ => ⟨by decide, fun _ => rfl⟩⟩

theorem endsAt_letter (h : Header) {conversion : Conversion} (names : conversion.Letter c) :
    h.EndsAt c := by
  cases names <;> exact ⟨rfl, fun _ => ⟨by decide, fun _ => rfl⟩⟩

theorem renderWithin_percent (h : Header) :
    renderWithin room ('%' :: (h.spelled ++ '%' :: t)) args =
      inFront room ['%'] fun room => renderWithin room t args := by
  rw [renderWithin_directive (endsAt_percent h)]
  exact read_put room ['%'] t args

theorem renderWithin_argument (request : Request) {v : Value} {padded : List Char}
    (names : request.conversion.Letter c)
    (converts : request.conversion.Converts request.header.places v text)
    (pads : request.header.Pads request.conversion text padded) :
    renderWithin room ('%' :: (request.header.spelled ++ c :: t)) (v :: rest) =
      inFront room padded fun room => renderWithin room t rest := by
  have hconvert : request.conversion.convert request.header.spec.precision v = .ok text :=
    Conversion.convert_eq_ok_iff.mpr converts
  rw [renderWithin_directive (endsAt_letter _ names), finishDirective_letter names, hconvert,
    ← Header.pads_iff.mp pads]
  exact read_put room _ t rest

/-- What a piece shows stands in front of what comes after it, in the room that it leaves. -/
theorem renderWithin_piece (shows : Shows [piece] args text) (t : List Char) (rest : List Value) :
    renderWithin room (piece.spelled ++ t) (args ++ rest) =
      inFront room text fun room => renderWithin room t rest := by
  cases shows with
  | @literal _ _ _ _ plain none =>
      cases none
      exact renderWithin_literal plain
  | @percent _ _ _ header none =>
      cases none
      rw [Piece.spelled, List.cons_append, List.append_assoc]
      exact renderWithin_percent header
  | @argument _ _ _ request _ names _ _ _ converts pads none =>
      cases none
      rw [Piece.spelled, List.cons_append, List.append_assoc, List.append_nil]
      exact renderWithin_argument request names converts pads

/-- Too many decimal places stop the rendering, whatever the room is. -/
theorem renderWithin_oversized {v : Value} (names : Conversion.decimal.Letter c)
    (number : v.kind = .bool ∨ v.kind = .integer ∨ v.kind = .float) (large : 65535 < h.places) :
    renderWithin room ('%' :: (h.spelled ++ c :: t)) (v :: rest) = .error .oversizedPrecision := by
  have hconvert : Conversion.decimal.convert h.spec.precision v = .error .oversizedPrecision :=
    Conversion.convert_eq_oversized number large
  rw [renderWithin_directive (endsAt_letter h names), finishDirective_letter names, hconvert]
  rfl

/-! ## How a template is read -/

/-- How a template is read with its arguments, from its first piece on. -/
inductive Reading : List Char → List Value → Prop
  | finished : Reading [] []
  | piece {piece : Piece} {first rest : List Value} {text t : List Char}
      (shows : Shows [piece] first text) (reading : Reading t rest) :
      Reading (piece.spelled ++ t) (first ++ rest)
  | oversized {h : Header} {c : Char} {v : Value} (names : Conversion.decimal.Letter c)
      (number : v.kind = .bool ∨ v.kind = .integer ∨ v.kind = .float) (large : 65535 < h.places)
      (t : List Char) (rest : List Value) : Reading ('%' :: (h.spelled ++ c :: t)) (v :: rest)
  | mismatch {t : List Char} {args : List Value}
      (fails : ∀ room, renderWithin room t args = .error .mismatch) : Reading t args

theorem reading_directive (ends : h.EndsAt c) (args : List Value)
    (reading : ∀ rest, Reading t rest) : Reading ('%' :: (h.spelled ++ c :: t)) args := by
  by_cases hpercent : c = '%'
  · have hshows : Shows [.percent h] [] ['%'] := .percent .nil
    have hpiece := Reading.piece hshows (reading args)
    simpa [Piece.spelled, hpercent] using hpiece
  cases hletter : Conversion.ofLetter? c with
  | none =>
      refine .mismatch fun room => ?_
      rw [renderWithin_directive ends]
      simp only [finishDirective, hpercent, hletter, if_false]
      rfl
  | some conversion =>
      cases args with
      | nil =>
          refine .mismatch fun room => ?_
          rw [renderWithin_directive ends]
          simp only [finishDirective, start, hpercent, hletter, if_false]
          rfl
      | cons v rest =>
          have names := Conversion.ofLetter?_eq_some_iff.mp hletter
          rcases conversion.convert_cases h.places? v with
            ⟨text, htext⟩ | ⟨rfl, number, large⟩ | hmismatch
          · have hshows : Shows [.argument ⟨h, conversion⟩ c names] [v] _ :=
              .argument (Conversion.convert_eq_ok_iff.mp htext) (Header.pads_iff.mpr rfl) .nil
            simpa [Piece.spelled] using Reading.piece hshows (reading rest)
          · exact .oversized names number large t rest
          · refine .mismatch fun room => ?_
            rw [renderWithin_directive ends, finishDirective_letter names]
            exact congrArg (· >>= _ >>= _) hmismatch

theorem reading (t : List Char) (args : List Value) : Reading t args := by
  induction t using reading_induction generalizing args with
  | nil =>
      cases args with
      | nil => exact .finished
      | cons v rest => exact .mismatch fun _ => rfl
  | literal c t plain ih =>
      have hshows : Shows [.literal c plain] [] [c] := .literal .nil
      exact .piece hshows (ih args)
  | unfinished h => exact .mismatch fun room => renderWithin_unfinished h room args
  | directive h c t ends ih => exact reading_directive ends args ih

end LogRelay.Template
