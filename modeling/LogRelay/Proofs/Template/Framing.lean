import LogRelay.Proofs.List.Traverse
import LogRelay.Template.Render

/-!
# What is shown before

Rendering does not look at what was shown before, only at the room that it left. So a text that is
written at the start of a template stands in front of what the template shows in the rest of the
room, and nothing of it is read. Padding writes in several steps, each of which may run out of room;
together they write one text or fail as one.
-/

namespace LogRelay.Template

variable {p : Progress} {spec : Spec} {c : Char} {t : List Char} {args : List Value}
  {room : Nat} {text : List Char}

/-! ## Writing -/

namespace Progress

theorem put_eq_overflow (h : p.room < Text.size text) :
    p.put text = .error .capacityOverflow :=
  if_pos h

theorem put_eq_ok (h : Text.size text ≤ p.room) :
    p.put text =
      .ok { p with shown := text.reverse ++ p.shown, room := p.room - Text.size text } :=
  if_neg (Nat.not_lt.mpr h)

/-- Two texts one after another take the room that they take as one. -/
theorem put_append (as bs : List Char) : p.put (as ++ bs) = p.put as >>= fun q => q.put bs := by
  rcases Nat.lt_or_ge p.room (Text.size as) with has | has
  · rw [put_eq_overflow has, put_eq_overflow (by rw [Text.size_append]; omega)]
    rfl
  · rw [put_eq_ok has]
    rcases Nat.lt_or_ge (p.room - Text.size as) (Text.size bs) with hbs | hbs
    · rw [put_eq_overflow (by rw [Text.size_append]; omega)]
      exact (put_eq_overflow hbs).symm
    · rw [put_eq_ok (by rw [Text.size_append]; omega), Text.size_append, List.reverse_append,
        List.append_assoc, Nat.sub_add_eq]
      exact (if_neg (Nat.not_lt.mpr hbs)).symm

theorem fill_eq_put (c : Char) (count : Nat) : p.fill c count = p.put (List.replicate count c) := by
  rw [fill, ← Text.size_replicate]
  split_ifs with h
  · exact (put_eq_overflow h).symm
  · rfl

end Progress

/-- A text brought to the width of a spec. -/
def Spec.padded (spec : Spec) (numeric : Bool) (text : List Char) : List Char :=
  let missing := spec.width - text.length
  if spec.leftAlign then text ++ List.replicate missing ' '
  else if spec.zeroPad && numeric then
    match text with
    | '-' :: digits => '-' :: (List.replicate missing '0' ++ digits)
    | digits => List.replicate missing '0' ++ digits
  else List.replicate missing ' ' ++ text

theorem Progress.pad_eq_put (numeric : Bool) :
    p.pad spec numeric text = p.put (spec.padded numeric text) := by
  simp only [pad, Spec.padded, fill_eq_put]
  split_ifs
  · exact (put_append _ _).symm
  · split
    · next digits =>
      change _ = p.put (['-'] ++ (_ ++ digits))
      simp only [put_append]
    · simp only [put_append]
  · exact (put_append _ _).symm

/-! ## Text before -/

namespace Progress

/-- The same progress behind a text, the last character of which comes first. -/
def behind (p : Progress) (text : List Char) : Progress :=
  { p with shown := p.shown ++ text }

theorem put_behind (p : Progress) (text before : List Char) :
    (p.behind before).put text = (p.put text).map fun q => q.behind before := by
  rcases Nat.lt_or_ge p.room (Text.size text) with h | h
  · rw [put_eq_overflow h]
    exact put_eq_overflow h
  · rw [put_eq_ok h, put_eq_ok (p := p.behind before) h]
    simp [Except.map, behind]

theorem finish_behind (before : List Char) :
    (p.behind before).finish = p.finish.map fun out => before.reverse ++ out := by
  unfold finish behind
  split_ifs <;> simp [Except.map]

end Progress

theorem finishDirective_behind (before : List Char) :
    finishDirective (p.behind before) spec c =
      (finishDirective p spec c).map fun q => q.behind before := by
  obtain ⟨place, shown, room, args⟩ := p
  simp only [finishDirective, Progress.pad_eq_put, Progress.behind]
  by_cases hpercent : c = '%'
  · simp only [hpercent, if_true]
    exact Progress.put_behind ⟨.plain, shown, room, args⟩ ['%'] before
  · simp only [hpercent, if_false]
    split
    · next conversion v rest _ =>
      cases conversion.convert spec.precision v with
      | error stop => rfl
      | ok text => exact Progress.put_behind ⟨.plain, shown, room, rest⟩ _ before
    · rfl

theorem stepWidth_behind (before : List Char) :
    stepWidth (p.behind before) spec c = (stepWidth p spec c).map fun q => q.behind before := by
  simp only [stepWidth, finishDirective_behind]
  split_ifs <;> rfl

theorem stepPrecision_behind (before : List Char) :
    stepPrecision (p.behind before) spec c =
      (stepPrecision p spec c).map fun q => q.behind before := by
  simp only [stepPrecision, finishDirective_behind]
  split_ifs <;> rfl

theorem step_behind (before : List Char) :
    step (p.behind before) c = (step p c).map fun q => q.behind before := by
  obtain ⟨place, shown, room, args⟩ := p
  cases place with
  | plain =>
      simp only [step, Progress.behind]
      split_ifs
      · rfl
      · exact Progress.put_behind ⟨.plain, shown, room, args⟩ [c] before
  | flags spec =>
      simp only [step, Progress.behind]
      split_ifs
      · rfl
      · exact stepWidth_behind (p := ⟨.flags spec, shown, room, args⟩) before
  | width spec => exact stepWidth_behind before
  | precision spec => exact stepPrecision_behind before

theorem foldlM_step_behind (before : List Char) :
    t.foldlM step (p.behind before) = (t.foldlM step p).map fun q => q.behind before := by
  induction t generalizing p with
  | nil => rfl
  | cons c t ih =>
      rw [List.foldlM_cons, List.foldlM_cons, step_behind]
      cases step p c with
      | error stop => rfl
      | ok q => exact ih

/-! ## A text and what comes after it -/

/-- A text in front of what is shown in the room that it leaves. -/
def inFront (room : Nat) (text : List Char) (rest : Nat → Except Stop (List Char)) :
    Except Stop (List Char) :=
  if room < Text.size text then .error .capacityOverflow
  else (rest (room - Text.size text)).map (text ++ ·)

variable {rest : Nat → Except Stop (List Char)}

theorem inFront_eq_overflow (h : room < Text.size text) :
    inFront room text rest = .error .capacityOverflow :=
  if_pos h

theorem inFront_eq_map (h : Text.size text ≤ room) :
    inFront room text rest = (rest (room - Text.size text)).map (text ++ ·) :=
  if_neg (Nat.not_lt.mpr h)

theorem inFront_eq_overflow_iff :
    inFront room text rest = .error .capacityOverflow ↔
      room < Text.size text ∨ rest (room - Text.size text) = .error .capacityOverflow := by
  rcases Nat.lt_or_ge room (Text.size text) with h | h
  · simp [inFront_eq_overflow h, h]
  · rw [inFront_eq_map h, map_eq_error_iff]
    exact (or_iff_right (Nat.not_lt.mpr h)).symm

theorem inFront_nil : inFront room [] rest = rest room := by
  rw [inFront_eq_map (Nat.zero_le room)]
  change (rest room).map id = rest room
  cases rest room with
  | error stop => rfl
  | ok tail => rfl

theorem inFront_append (as bs : List Char) :
    inFront room (as ++ bs) rest = inFront room as fun room => inFront room bs rest := by
  rcases Nat.lt_or_ge room (Text.size as) with has | has
  · rw [inFront_eq_overflow has, inFront_eq_overflow (by rw [Text.size_append]; omega)]
  · rw [inFront_eq_map has]
    rcases Nat.lt_or_ge (room - Text.size as) (Text.size bs) with hbs | hbs
    · rw [inFront_eq_overflow hbs, inFront_eq_overflow (by rw [Text.size_append]; omega)]
      rfl
    · rw [inFront_eq_map hbs, inFront_eq_map (by rw [Text.size_append]; omega), Text.size_append,
        Nat.sub_add_eq]
      cases rest (room - Text.size as - Text.size bs) with
      | error stop => rfl
      | ok tail => simp [Except.map]

/-- A text that is written at the start of a template stands in front of what the template shows. -/
theorem read_put (room : Nat) (text t : List Char) (args : List Value) :
    ((start room args).put text >>= fun p => t.foldlM step p >>= Progress.finish) =
      inFront room text fun room => renderWithin room t args := by
  rcases Nat.lt_or_ge room (Text.size text) with h | h
  · rw [Progress.put_eq_overflow h, inFront_eq_overflow h]
    rfl
  · have hput : (start room args).put text =
        .ok ((start (room - Text.size text) args).behind text.reverse) :=
      (Progress.put_eq_ok h).trans (by simp [start, Progress.behind])
    rw [hput, inFront_eq_map h]
    change t.foldlM step (Progress.behind _ _) >>= Progress.finish =
      (t.foldlM step (start _ args) >>= Progress.finish).map _
    rw [foldlM_step_behind]
    cases t.foldlM step (start (room - Text.size text) args) with
    | error stop => rfl
    | ok q =>
        refine (Progress.finish_behind text.reverse).trans ?_
        rw [List.reverse_reverse]
        rfl

end LogRelay.Template
