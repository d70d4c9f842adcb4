import LogRelay.Proofs.Template.Reading

/-!
# What rendering shows

A template is rendered exactly when some pieces spell it that fit the arguments and show no more
than there is room for. Otherwise the first piece that goes wrong decides: there is no room for what
the pieces up to it show, or it asks for too many decimal places, or the template and the arguments
do not belong together.
-/

namespace LogRelay.Template

variable {t : List Char} {args rest first : List Value} {room : Nat} {text out : List Char}
  {piece : Piece} {pieces front : List Piece}

/-- A template is rendered in the room that a text can take. -/
theorem render_eq (t : List Char) (args : List Value) :
    render t args = renderWithin (2 ^ 63 - 1) t args :=
  rfl

/-! ## Pieces one after another -/

theorem spelling_append (front pieces : List Piece) :
    spelling (front ++ pieces) = spelling front ++ spelling pieces :=
  List.flatMap_append

theorem spelling_singleton (piece : Piece) : spelling [piece] = piece.spelled :=
  List.flatMap_singleton _ _

theorem Shows.append (h : Shows front first text) (h' : Shows pieces rest out) :
    Shows (front ++ pieces) (first ++ rest) (text ++ out) := by
  induction h with
  | nil => exact h'
  | literal _ ih => exact .literal ih
  | percent _ ih => exact .percent ih
  | argument converts pads _ ih =>
      rw [List.append_assoc]
      exact .argument converts pads ih

/-- The first piece shows its part and the others show the rest. -/
theorem Shows.uncons (h : Shows (piece :: pieces) args out) :
    ∃ first text rest tail, Shows [piece] first text ∧ Shows pieces rest tail ∧
      first ++ rest = args ∧ text ++ tail = out := by
  cases h with
  | literal rest => exact ⟨[], _, _, _, .literal .nil, rest, rfl, rfl⟩
  | percent rest => exact ⟨[], _, _, _, .percent .nil, rest, rfl, rfl⟩
  | argument converts pads rest =>
      exact ⟨_, _, _, _, .argument converts pads .nil, rest, rfl, by rw [List.append_nil]⟩

theorem Shows.fits (h : Shows pieces args out) : Fits pieces args :=
  exists_shows_iff_fits.mp ⟨out, h⟩

theorem Fits.append (h : Fits front first) (h' : Fits pieces rest) :
    Fits (front ++ pieces) (first ++ rest) := by
  rw [Fits, List.filterMap_append]
  exact List.rel_append h h'

/-! ## What the pieces show -/

/-- What pieces show stands in front of whatever comes after them, in the room that they leave. -/
theorem renderWithin_spelling_append (shows : Shows pieces args out) (room : Nat) (t : List Char)
    (rest : List Value) :
    renderWithin room (spelling pieces ++ t) (args ++ rest) =
      inFront room out fun room => renderWithin room t rest := by
  induction pieces generalizing args out room with
  | nil =>
      cases shows
      rw [inFront_nil]
      rfl
  | cons piece pieces ih =>
      obtain ⟨first, text, others, tail, hpiece, hpieces, rfl, rfl⟩ := shows.uncons
      calc
        renderWithin room (spelling (piece :: pieces) ++ t) (first ++ others ++ rest)
            = renderWithin room (piece.spelled ++ (spelling pieces ++ t))
                (first ++ (others ++ rest)) := by
          rw [List.append_assoc, ← List.append_assoc piece.spelled]
          rfl
        _ = inFront room text fun room =>
              renderWithin room (spelling pieces ++ t) (others ++ rest) :=
          renderWithin_piece hpiece _ _
        _ = inFront room text fun room =>
              inFront room tail fun room => renderWithin room t rest := by
          simp only [ih hpieces]
        _ = inFront room (text ++ tail) fun room => renderWithin room t rest :=
          (inFront_append text tail).symm

theorem renderWithin_of_shows (shows : Shows pieces args out) (room : Nat) :
    renderWithin room (spelling pieces) args =
      if Text.size out ≤ room then .ok out else .error .capacityOverflow := by
  have hrender := renderWithin_spelling_append shows room [] []
  rw [List.append_nil, List.append_nil] at hrender
  rw [hrender]
  split_ifs with hroom
  · rw [inFront_eq_map hroom]
    exact congrArg Except.ok (List.append_nil out)
  · exact inFront_eq_overflow (Nat.lt_of_not_le hroom)

/-! ## No room, and too many decimal places -/

theorem Overflows.behind (shows : Shows front first text)
    (h : Overflows (room - Text.size text) t rest) :
    Overflows room (spelling front ++ t) (first ++ rest) := by
  cases h with
  | @pieces pieces args out hshows large tail more =>
      have hlarge : room < Text.size (text ++ out) := by
        rw [Text.size_append]
        omega
      have hall := Overflows.pieces (shows.append hshows) hlarge tail more
      rwa [spelling_append, List.append_assoc, List.append_assoc] at hall

theorem Overflows.antitone {larger : Nat} (hroom : room ≤ larger) (h : Overflows larger t args) :
    Overflows room t args := by
  cases h with
  | pieces shows large tail more => exact .pieces shows (Nat.lt_of_le_of_lt hroom large) tail more

theorem Oversized.behind (fits : Fits front first) (h : Oversized t rest) :
    Oversized (spelling front ++ t) (first ++ rest) := by
  cases h with
  | decimal fits' names number large tail more =>
      have hall := Oversized.decimal (fits.append fits') names number large tail more
      rwa [spelling_append, List.append_assoc, List.append_assoc] at hall

/-! ## The outcome of rendering -/

/-- What an outcome of rendering tells about the template and the arguments. A mismatch is what is
left when nothing else is the case. -/
inductive Explains (room : Nat) (t : List Char) (args : List Value) :
    Except Stop (List Char) → Prop
  | shown {pieces : List Piece} {out : List Char} (spells : spelling pieces = t)
      (shows : Shows pieces args out) (fits : Text.size out ≤ room) : Explains room t args (.ok out)
  | overflows (overflows : Overflows room t args) :
      Explains room t args (.error .capacityOverflow)
  | oversized (oversized : Oversized t args) :
      Explains room t args (.error .oversizedPrecision)
  | mismatch : Explains room t args (.error .mismatch)

/-- What is told about the rest of a template is told about the whole. -/
theorem Explains.behind {result : Except Stop (List Char)} (shows : Shows [piece] first text)
    (hroom : Text.size text ≤ room) (h : Explains (room - Text.size text) t rest result) :
    Explains room (piece.spelled ++ t) (first ++ rest) (result.map (text ++ ·)) := by
  rw [← spelling_singleton]
  cases h with
  | @shown pieces out spells hshows fits =>
      have hspells : spelling ([piece] ++ pieces) = spelling [piece] ++ t := by
        rw [spelling_append, spells]
      refine .shown hspells (shows.append hshows) ?_
      rw [Text.size_append]
      omega
  | overflows hoverflows => exact .overflows (hoverflows.behind shows)
  | oversized hoversized => exact .oversized (hoversized.behind shows.fits)
  | mismatch => exact .mismatch

theorem explains_renderWithin (reading : Reading t args) (room : Nat) :
    Explains room t args (renderWithin room t args) := by
  induction reading generalizing room with
  | finished =>
      have hspells : spelling [] = [] := rfl
      exact .shown hspells .nil (Nat.zero_le room)
  | @piece piece _ _ text t shows _ ih =>
      rw [renderWithin_piece shows]
      rcases Nat.lt_or_ge room (Text.size text) with large | hroom
      · rw [inFront_eq_overflow large, ← spelling_singleton]
        exact .overflows (.pieces shows large t _)
      · rw [inFront_eq_map hroom]
        exact (ih (room - Text.size text)).behind shows hroom
  | oversized names number large t rest =>
      have hfits : Fits [] [] := .nil
      rw [renderWithin_oversized names number large]
      exact .oversized (.decimal hfits names number large t rest)
  | mismatch fails =>
      rw [fails]
      exact .mismatch

/-- A template is rendered if some pieces spell it that show all arguments and have room. -/
theorem renderWithin_eq_ok_iff :
    renderWithin room t args = .ok out ↔
      ∃ pieces, spelling pieces = t ∧ Shows pieces args out ∧ Text.size out ≤ room := by
  constructor
  · intro h
    cases h ▸ explains_renderWithin (reading t args) room with
    | shown spells shows fits => exact ⟨_, spells, shows, fits⟩
  · rintro ⟨pieces, rfl, hshows, hroom⟩
    rw [renderWithin_of_shows hshows, if_pos hroom]

example : render "%-04d|%04i|%%|%r".toList [.int 7, .int (-7), .text "x"] =
    .ok "7   |-007|%|\x27x\x27".toList := by decide

theorem renderWithin_eq_overflow_iff :
    renderWithin room t args = .error .capacityOverflow ↔ Overflows room t args := by
  constructor
  · intro h
    cases h ▸ explains_renderWithin (reading t args) room with
    | overflows overflows => exact overflows
  · intro h
    cases h with
    | pieces shows large tail more =>
        rw [renderWithin_spelling_append shows, inFront_eq_overflow large]

theorem renderWithin_eq_oversized_iff :
    renderWithin room t args = .error .oversizedPrecision ↔
      Oversized t args ∧ ¬Overflows room t args := by
  rw [← renderWithin_eq_overflow_iff]
  constructor
  · intro h
    refine ⟨?_, by simp [h]⟩
    cases h ▸ explains_renderWithin (reading t args) room with
    | oversized oversized => exact oversized
  · rintro ⟨hlarge, hroom⟩
    cases hlarge with
    | decimal fits names number large tail more =>
        obtain ⟨out, hshows⟩ := exists_shows_iff_fits.mpr fits
        rw [renderWithin_spelling_append hshows] at hroom ⊢
        rw [inFront_eq_overflow_iff, not_or, Nat.not_lt] at hroom
        rw [inFront_eq_map hroom.1, renderWithin_oversized names number large]
        rfl

theorem renderWithin_eq_mismatch_iff :
    renderWithin room t args = .error .mismatch ↔
      (∀ pieces, spelling pieces = t → ¬Fits pieces args) ∧ ¬Oversized t args ∧
        ¬Overflows room t args := by
  constructor
  · intro h
    refine ⟨?_, fun hlarge => ?_, fun hroom => ?_⟩
    · rintro pieces rfl hfits
      obtain ⟨out, hshows⟩ := exists_shows_iff_fits.mpr hfits
      rw [renderWithin_of_shows hshows] at h
      split_ifs at h
      all_goals cases h
    · have hroom : ¬Overflows room t args := by simp [← renderWithin_eq_overflow_iff, h]
      cases (renderWithin_eq_oversized_iff.mpr ⟨hlarge, hroom⟩).symm.trans h
    · cases (renderWithin_eq_overflow_iff.mpr hroom).symm.trans h
  · rintro ⟨hmisfit, hsmall, hroom⟩
    cases h : renderWithin room t args with
    | ok out =>
        obtain ⟨pieces, hspells, hshows, -⟩ := renderWithin_eq_ok_iff.mp h
        exact absurd hshows.fits (hmisfit pieces hspells)
    | error stop =>
        cases stop with
        | mismatch => rfl
        | oversizedPrecision => exact absurd (renderWithin_eq_oversized_iff.mp h).1 hsmall
        | capacityOverflow => exact absurd (renderWithin_eq_overflow_iff.mp h) hroom

end LogRelay.Template
