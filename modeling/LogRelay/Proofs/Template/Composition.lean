import LogRelay.Proofs.Template.Rendering

/-!
# Templates one after another

A template that is rendered with its arguments may be followed by any other: the text of the first
stands in front of what the second gives, nothing of it is read again, and no directive, no width
and no argument is carried over. All that is handed on is the room. In particular a text with every
percent sign doubled shows itself, and an argument is shown between two such texts whatever it
contains.
-/

namespace LogRelay.Template

variable {s t : List Char} {args rest : List Value} {room : Nat} {text out : List Char}

/-- What is rendered stands in front of whatever comes after it. -/
theorem renderWithin_append (h : renderWithin room s args = .ok out) (t : List Char)
    (rest : List Value) :
    renderWithin room (s ++ t) (args ++ rest) =
      (renderWithin (room - Text.size out) t rest).map (out ++ ·) := by
  obtain ⟨pieces, rfl, hshows, hroom⟩ := renderWithin_eq_ok_iff.mp h
  rw [renderWithin_spelling_append hshows, inFront_eq_map hroom]

/-- More room changes nothing where there is enough. -/
theorem renderWithin_of_not_overflows {larger : Nat} (hroom : room ≤ larger)
    (h : ¬Overflows room t args) : renderWithin larger t args = renderWithin room t args := by
  have hlarger : ¬Overflows larger t args := mt (Overflows.antitone hroom) h
  cases hrender : renderWithin room t args with
  | ok out =>
      obtain ⟨pieces, hspells, hshows, hsize⟩ := renderWithin_eq_ok_iff.mp hrender
      exact renderWithin_eq_ok_iff.mpr ⟨pieces, hspells, hshows, hsize.trans hroom⟩
  | error stop =>
      cases stop with
      | mismatch =>
          obtain ⟨hmisfit, hsmall, -⟩ := renderWithin_eq_mismatch_iff.mp hrender
          exact renderWithin_eq_mismatch_iff.mpr ⟨hmisfit, hsmall, hlarger⟩
      | oversizedPrecision =>
          have hlarge := (renderWithin_eq_oversized_iff.mp hrender).1
          exact renderWithin_eq_oversized_iff.mpr ⟨hlarge, hlarger⟩
      | capacityOverflow => exact absurd (renderWithin_eq_overflow_iff.mp hrender) h

/-! ## Text that stands for itself -/

/-- A text with every percent sign doubled. -/
def escaped (text : List Char) : List Char :=
  text.flatMap fun c => if c = '%' then ['%', '%'] else [c]

theorem exists_shows_escaped (text : List Char) :
    ∃ pieces, spelling pieces = escaped text ∧ Shows pieces [] text := by
  induction text with
  | nil => exact ⟨[], rfl, .nil⟩
  | cons c text ih =>
      obtain ⟨pieces, hspells, hshows⟩ := ih
      by_cases hpercent : c = '%'
      · subst hpercent
        refine ⟨.percent .bare :: pieces, ?_, .percent hshows⟩
        change '%' :: '%' :: spelling pieces = '%' :: '%' :: escaped text
        rw [hspells]
      · refine ⟨.literal c hpercent :: pieces, ?_, .literal hshows⟩
        change c :: spelling pieces = (if c = '%' then ['%', '%'] else [c]) ++ escaped text
        rw [hspells, if_neg hpercent]
        rfl

theorem shows_display (v : Value) :
    Shows [.argument ⟨.bare, .plain⟩ 's' .s] [v] v.display.toList := by
  have hpads : Header.bare.Pads .plain v.display.toList
      (List.replicate (0 - v.display.toList.length) ' ' ++ v.display.toList) :=
    .right (by simp [Header.bare, Header.ofWidth]) (fun _ => .inl rfl)
  have hshows : Shows [.argument ⟨.bare, .plain⟩ 's' .s] [v] _ :=
    .argument (.plain (Value.displays_iff.mpr rfl)) hpads .nil
  simpa using hshows

/-- An argument between two texts stands there as it is, whatever it contains. -/
theorem exists_shows_between (before after : List Char) (v : Value) :
    ∃ pieces, spelling pieces = escaped before ++ '%' :: 's' :: escaped after ∧
      Shows pieces [v] (before ++ v.display.toList ++ after) := by
  obtain ⟨front, hfront, hbefore⟩ := exists_shows_escaped before
  obtain ⟨back, hback, hafter⟩ := exists_shows_escaped after
  refine ⟨front ++ [.argument ⟨.bare, .plain⟩ 's' .s] ++ back, ?_,
    (hbefore.append (shows_display v)).append hafter⟩
  rw [spelling_append, spelling_append, hfront, hback, List.append_assoc]
  rfl

/-! ## Composition -/

/-- As many columns as a text can have bytes. -/
def Header.widest : Header :=
  .ofWidth "9223372036854775807".toList (by simp) (by simp)

end LogRelay.Template
