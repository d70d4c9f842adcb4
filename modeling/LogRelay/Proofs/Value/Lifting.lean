import LogRelay.Proofs.List.Traverse
import LogRelay.Proofs.MessagePack.Grammar
import LogRelay.Proofs.Value.Structure

/-!
# Lifted values

What it means that every byte string in a value that spells a text is replaced by that text, told by
a relation between both values. The textual form is the one value to which a value is so related.
-/

namespace LogRelay.Value

/-- The second value is the first with every byte string that is UTF-8, at any depth and in keys
too, replaced by the text that it spells. -/
inductive Lifts : Value → Value → Prop
  | spelled {s : String} : Lifts (.bytes (Text.utf8 s)) (.text s)
  | raw {bs : List UInt8} (invalid : Text.ofUtf8? bs = none) : Lifts (.bytes bs) (.bytes bs)
  | leaf {v : Value} (bytes : v.kind ≠ .bytes) (array : v.kind ≠ .array) (map : v.kind ≠ .map) :
      Lifts v v
  | array {vs ws : List Value} (parts : List.Forall₂ Lifts vs ws) : Lifts (.array vs) (.array ws)
  | map {vs ws : List (Value × Value)}
      (parts : List.Forall₂ (MessagePack.Componentwise Lifts) vs ws) : Lifts (.map vs) (.map ws)

theorem lifts_bytes_iff {bs : List UInt8} {w : Value} : Lifts (.bytes bs) w ↔ ofBytes bs = w := by
  constructor
  · intro h
    cases h with
    | spelled => rw [ofBytes, Text.ofUtf8?_utf8]
    | raw invalid => rw [ofBytes, invalid]
    | leaf bytes => exact absurd rfl bytes
  · rintro rfl
    cases hbs : Text.ofUtf8? bs with
    | none =>
        rw [ofBytes, hbs]
        exact .raw hbs
    | some s =>
        rw [ofBytes, hbs, ← Text.utf8_of_ofUtf8? hbs]
        exact .spelled

/-- Lifting is a function: the result is the textual form. -/
theorem lifts_iff {v w : Value} : v.Lifts w ↔ v.textual = w := by
  induction v using structural generalizing w with
  | bytes bs => exact lifts_bytes_iff
  | array items ih =>
      have hparts : ∀ ws, List.Forall₂ Lifts items ws ↔ items.map textual = ws :=
        fun ws => forall₂_iff_map_eq fun v hv w => @ih v hv w
      rw [textual, textualItems_eq_map]
      constructor
      · intro h
        cases h with
        | leaf _ array => exact absurd rfl array
        | array parts => rw [(hparts _).mp parts]
      · rintro rfl
        exact .array ((hparts _).mpr rfl)
  | map entries ih =>
      have hparts : ∀ ws, List.Forall₂ (MessagePack.Componentwise Lifts) entries ws ↔
          entries.map (Prod.map textual textual) = ws := by
        refine fun ws => forall₂_iff_map_eq fun entry hentry found => ⟨?_, ?_⟩
        · rintro ⟨first, second⟩
          exact Prod.ext ((ih _ hentry).1.mp first) ((ih _ hentry).2.mp second)
        · rintro rfl
          exact ⟨(ih entry hentry).1.mpr rfl, (ih entry hentry).2.mpr rfl⟩
      rw [textual, textualEntries_eq_map]
      constructor
      · intro h
        cases h with
        | leaf _ _ map => exact absurd rfl map
        | map parts => rw [(hparts _).mp parts]
      · rintro rfl
        exact .map ((hparts _).mpr rfl)
  | _ =>
      constructor
      · intro h
        cases h
        rfl
      · rintro rfl
        exact .leaf Kind.noConfusion Kind.noConfusion Kind.noConfusion

end LogRelay.Value
