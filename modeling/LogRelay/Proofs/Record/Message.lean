import LogRelay.Proofs.Template.Rendering
import LogRelay.Record.Basic

/-!
# The message of a record

A message that is present is kept as it is. Otherwise the template is interpolated with the
arguments of the record, all or nothing: either its pieces show all the arguments, or the template
itself is the message. There are two exceptions that leave the record without a message: a number
with more decimal places than numbers can be written with, and more to show than a text can hold.
-/

namespace LogRelay.LogRecord

open Template

/-- A template is not interpolated with these arguments. -/
inductive Bare : Option Value → Prop
  | absent : Bare none
  | nil : Bare (some .nil)
  | empty : Bare (some (.array []))
  | map {entries : List (Value × Value)} : Bare (some (.map entries))

/-- The values that a template is interpolated with. -/
inductive Supplies : Option Value → List Value → Prop
  | array {v : Value} {rest : List Value} : Supplies (some (.array (v :: rest))) (v :: rest)
  | single {v : Value} (nil : v.kind ≠ .nil) (array : v.kind ≠ .array) (map : v.kind ≠ .map) :
      Supplies (some v) [v]

/-- What the message of a record is. -/
inductive Message (r : LogRecord) : Except FormatFault String → Prop
  /-- A message that is present is kept. -/
  | kept {message : String} (present : r.message = some message) : Message r (.ok message)
  /-- Without arguments the template stands for itself. -/
  | bare (absent : r.message = none) (bare : Bare r.args) : Message r (.ok r.msg)
  /-- The pieces of the template show the arguments. -/
  | shown {args : List Value} {pieces : List Piece} {out : List Char} (absent : r.message = none)
      (supplies : Supplies r.args args) (spells : spelling pieces = r.msg.toList)
      (shows : Shows pieces args out) (room : Text.size out ≤ 2 ^ 63 - 1) :
      Message r (.ok (String.ofList out))
  /-- A template that does not fit its arguments stands for itself. -/
  | misfit {args : List Value} (absent : r.message = none) (supplies : Supplies r.args args)
      (misfit : ∀ pieces, spelling pieces = r.msg.toList → ¬Fits pieces args)
      (small : ¬Oversized r.msg.toList args)
      (room : ¬Overflows (2 ^ 63 - 1) r.msg.toList args) : Message r (.ok r.msg)
  /-- A number cannot be written with so many decimal places. -/
  | oversized {args : List Value} (absent : r.message = none) (supplies : Supplies r.args args)
      (oversized : Oversized r.msg.toList args)
      (room : ¬Overflows (2 ^ 63 - 1) r.msg.toList args) : Message r (.error .oversizedPrecision)
  /-- There is no text that could hold what the pieces show. -/
  | overflowing {args : List Value} (absent : r.message = none) (supplies : Supplies r.args args)
      (overflowing : Overflows (2 ^ 63 - 1) r.msg.toList args) :
      Message r (.error .capacityOverflow)

variable {r : LogRecord} {args : Option Value} {values : List Value}
  {result : Except FormatFault String}

theorem templateArgs?_eq_none_iff : templateArgs? args = none ↔ Bare args := by
  constructor
  · intro h
    cases args with
    | none => exact .absent
    | some v =>
        cases v with
        | nil => exact .nil
        | map entries => exact .map
        | array items =>
            cases items with
            | nil => exact .empty
            | cons v rest => cases h
        | _ => cases h
  · intro h
    cases h <;> rfl

theorem templateArgs?_eq_some_iff : templateArgs? args = some values ↔ Supplies args values := by
  constructor
  · intro h
    cases args with
    | none => cases h
    | some v =>
        cases v with
        | nil => cases h
        | map entries => cases h
        | array items =>
            cases items with
            | nil => cases h
            | cons v rest =>
                cases h
                exact .array
        | _ =>
            cases h
            exact .single (nomatch ·) (nomatch ·) (nomatch ·)
  · intro h
    cases h with
    | array => rfl
    | @single v nil array map =>
        cases v with
        | nil => exact absurd rfl nil
        | array items => exact absurd rfl array
        | map entries => exact absurd rfl map
        | _ => rfl

theorem message_text (r : LogRecord) : r.Message r.text := by
  cases hmessage : r.message with
  | some message =>
      have htext : r.text = .ok message := by simp only [text, hmessage]
      rw [htext]
      exact .kept hmessage
  | none =>
      cases hargs : templateArgs? r.args with
      | none =>
          have htext : r.text = .ok r.msg := by simp only [text, hmessage, hargs]
          rw [htext]
          exact .bare hmessage (templateArgs?_eq_none_iff.mp hargs)
      | some values =>
          have hsupplies := templateArgs?_eq_some_iff.mp hargs
          simp only [text, hmessage, hargs]
          split
          · next out hrender =>
            obtain ⟨pieces, hspells, hshows, hroom⟩ := renderWithin_eq_ok_iff.mp hrender
            exact .shown hmessage hsupplies hspells hshows hroom
          · next hrender =>
            obtain ⟨hmisfit, hsmall, hroom⟩ := renderWithin_eq_mismatch_iff.mp hrender
            exact .misfit hmessage hsupplies hmisfit hsmall hroom
          · next hrender =>
            obtain ⟨hlarge, hroom⟩ := renderWithin_eq_oversized_iff.mp hrender
            exact .oversized hmessage hsupplies hlarge hroom
          · next hrender =>
            exact .overflowing hmessage hsupplies (renderWithin_eq_overflow_iff.mp hrender)

theorem text_of_message (h : r.Message result) : r.text = result := by
  cases h with
  | kept present => simp only [text, present]
  | bare absent bare => simp only [text, absent, templateArgs?_eq_none_iff.mpr bare]
  | shown absent supplies spells shows room =>
      have hrender := renderWithin_eq_ok_iff.mpr ⟨_, spells, shows, room⟩
      simp only [text, absent, templateArgs?_eq_some_iff.mpr supplies, render_eq, hrender]
  | misfit absent supplies misfit small room =>
      have hrender := renderWithin_eq_mismatch_iff.mpr ⟨misfit, small, room⟩
      simp only [text, absent, templateArgs?_eq_some_iff.mpr supplies, render_eq, hrender]
  | oversized absent supplies oversized room =>
      have hrender := renderWithin_eq_oversized_iff.mpr ⟨oversized, room⟩
      simp only [text, absent, templateArgs?_eq_some_iff.mpr supplies, render_eq, hrender]
  | overflowing absent supplies overflowing =>
      have hrender := renderWithin_eq_overflow_iff.mpr overflowing
      simp only [text, absent, templateArgs?_eq_some_iff.mpr supplies, render_eq, hrender]

/-- A record that shows the number one in more columns than a text can have. -/
def wide : LogRecord :=
  { blank with msg := "%9999999999999999999d", args := some (.array [.int 1]) }

end LogRelay.LogRecord
