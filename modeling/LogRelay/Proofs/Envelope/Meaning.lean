import LogRelay.Envelope
import LogRelay.Proofs.List.Traverse
import LogRelay.Proofs.Value.Structure

/-!
# What a value means as a message

Whether a field can be set depends on its value only. A value that was read is never reported as
undecodable: every report about it names a key, a field or its kind. And its meaning depends on its
textual form only.
-/

namespace LogRelay

/-! ## Setting fields -/

namespace LogRecord

/-- A value other than nil can be set under the rule. -/
def converts : Field.Rule → Value → Bool
  | .text, v => v.text?.isSome
  | .integer, v => (signed? v).isSome
  | .unsigned, v => (unsigned? v).isSome
  | .float, v => (float? v).isSome
  | .anything, _ => true

/-- The content of a field is what its value converts to; nil converts to nothing. -/
theorem lift_eq_ok {α : Type} {field : Field} {convert : Value → Option α} {v : Value}
    {a : Option α} (hnil : convert .nil = none) (h : lift field convert v = .ok a) :
    a = convert v := by
  unfold lift at h
  split at h
  · cases h
    exact hnil.symm
  · split at h
    · next hconvert =>
      cases h
      exact hconvert.symm
    · cases h

theorem lift_eq_error_iff {α : Type} {field : Field} {convert : Value → Option α} {v : Value}
    {e : MalformedRecord} :
    lift field convert v = .error e ↔
      v ≠ .nil ∧ (convert v).isSome = false ∧ e = .fieldType field field.rule v.kind := by
  unfold lift
  split
  · simp
  · next hnil =>
    have hnil : v ≠ .nil := hnil
    cases hconvert : convert v with
    | none => simp [hnil, eq_comm]
    | some a => simp

theorem Draft.set_eq_error_iff {d : Draft} {field : Field} {v : Value} {e : MalformedRecord} :
    d.set field v = .error e ↔
      v ≠ .nil ∧ converts field.rule v = false ∧ e = .fieldType field field.rule v.kind := by
  cases field with
  | msg | args => simp [set, Field.rule, converts]
  | _ => exact map_eq_error_iff.trans lift_eq_error_iff

/-- Whether a field can be added does not depend on the fields before it. -/
theorem Draft.add_error_congr (d : Draft) (field : String × Value) (e : MalformedRecord) :
    d.add field = .error e ↔ Draft.add {} field = .error e := by
  unfold add
  split
  · rw [set_eq_error_iff, set_eq_error_iff]
  · simp

theorem Draft.add_eq_error {d : Draft} {entry : String × Value} {e : MalformedRecord}
    (h : d.add entry = .error e) :
    ∃ field, Field.ofKey? entry.1 = some field ∧ e = .fieldType field field.rule entry.2.kind := by
  unfold add at h
  split at h
  · next field hfield => exact ⟨field, hfield, (set_eq_error_iff.mp h).2.2⟩
  · cases h

theorem ofFields_eq_error {entries : List (String × Value)} {e : MalformedRecord}
    (h : ofFields entries = .error e) :
    ∃ entry ∈ entries, ∃ field, Field.ofKey? entry.1 = some field ∧
      e = .fieldType field field.rule entry.2.kind := by
  obtain ⟨d, entry, hmem, hadd⟩ := exists_of_foldlM_eq_error (map_eq_error_iff.mp h)
  exact ⟨entry, hmem, Draft.add_eq_error hadd⟩

end LogRecord

/-! ## Reports -/

theorem textualKey_eq_error {k : Value} {e : MalformedRecord} (h : textualKey k = .error e) :
    ∃ found, e = .invalidKey found := by
  unfold textualKey at h
  split at h
  · split at h
    · cases h
    · exact ⟨_, (Except.error.inj h).symm⟩
  · cases h

theorem textualEntry_eq_error {entry : Value × Value} {e : MalformedRecord}
    (h : textualEntry entry = .error e) :
    (∃ found, e = .invalidKey found) ∨ ∃ k, e = .invalidUtf8 k := by
  rcases bind_eq_error_iff.mp h with h | ⟨key, -, h⟩
  · exact .inl (textualKey_eq_error h)
  · dsimp only at h
    split at h
    · split at h
      · exact .inr ⟨_, (Except.error.inj h).symm⟩
      · cases h
    · cases h

theorem namedEntry_eq_error {entry : Value × Value} {e : MalformedRecord}
    (h : namedEntry entry = .error e) : e = .invalidKey entry.1.kind.name := by
  unfold namedEntry at h
  split at h
  · cases h
  · exact (Except.error.inj h).symm

namespace Envelope

/-- What is reported about a value is its kind, or a key or a field of a map. -/
theorem ofValue_eq_error_cases {v : Value} {e : MalformedRecord} (h : ofValue v = .error e) :
    (∃ kind, e = .notAMapping kind) ∨ (∃ found, e = .invalidKey found) ∨
      (∃ k, e = .invalidUtf8 k) ∨ ∃ field kind, e = .fieldType field field.rule kind := by
  unfold ofValue at h
  split at h
  · next entries =>
    rcases bind_eq_error_iff.mp h with h | ⟨textual, -, h⟩
    · obtain ⟨entry, -, h⟩ := exists_of_mapM_eq_error h
      rcases textualEntry_eq_error h with hkey | hvalue
      · exact .inr (.inl hkey)
      · exact .inr (.inr (.inl hvalue))
    rcases bind_eq_error_iff.mp h with h | ⟨named, -, h⟩
    · obtain ⟨entry, -, h⟩ := exists_of_mapM_eq_error h
      exact .inr (.inl ⟨_, namedEntry_eq_error h⟩)
    rcases bind_eq_error_iff.mp h with h | ⟨r, -, h⟩
    · obtain ⟨entry, -, field, -, h⟩ := LogRecord.ofFields_eq_error h
      exact .inr (.inr (.inr ⟨field, _, h⟩))
    · cases h
  · exact .inl ⟨_, (Except.error.inj h).symm⟩

theorem ofValue_ne_undecodable (v : Value) (cause : MessagePack.ReadError) :
    ofValue v ≠ .error (.undecodable cause) := by
  intro h
  rcases ofValue_eq_error_cases h with ⟨_, h⟩ | ⟨_, h⟩ | ⟨_, h⟩ | ⟨_, _, h⟩ <;> cases h

theorem ofValue_ne_trailingBytes (v : Value) (count : Nat) :
    ofValue v ≠ .error (.trailingBytes count) := by
  intro h
  rcases ofValue_eq_error_cases h with ⟨_, h⟩ | ⟨_, h⟩ | ⟨_, h⟩ | ⟨_, _, h⟩ <;> cases h

end Envelope

/-! ## Textual forms -/

theorem Value.textual_ofBytes (bs : List UInt8) : (ofBytes bs).textual = ofBytes bs := by
  unfold ofBytes
  cases h : Text.ofUtf8? bs with
  | some s => rfl
  | none => rw [textual, ofBytes, h]

theorem Value.textual_textual (v : Value) : v.textual.textual = v.textual := by
  induction v using Value.structural with
  | bytes bs => exact textual_ofBytes bs
  | array items ih =>
      rw [textual, textual, textualItems_eq_map, textualItems_eq_map, List.map_map]
      exact congrArg array (List.map_congr_left ih)
  | map entries ih =>
      rw [textual, textual, textualEntries_eq_map, textualEntries_eq_map, List.map_map]
      exact congrArg map (List.map_congr_left fun entry hmem =>
        Prod.ext (ih entry hmem).1 (ih entry hmem).2)
  | _ => rfl

theorem kind_of_textualKey {k key : Value} (h : textualKey k = .ok key) : key.kind ≠ .bytes := by
  cases k with
  | bytes bs =>
      rw [textualKey] at h
      split at h
      · cases h
        exact fun h => (nomatch h)
      · cases h
  | _ =>
      cases h
      exact fun h => (nomatch h)

theorem textualKey_textual (k : Value) :
    textualKey k.textual = (textualKey k).map Value.textual := by
  cases k with
  | bytes bs =>
      rw [Value.textual, Value.ofBytes, textualKey]
      cases h : Text.ofUtf8? bs with
      | some s => rfl
      | none => rw [textualKey, h]; rfl
  | _ => rfl

theorem textualEntry_textual (k v : Value) :
    textualEntry (k.textual, v.textual) =
      (textualEntry (k, v)).map (Prod.map Value.textual id) := by
  unfold textualEntry
  rw [textualKey_textual, Value.textual_textual]
  cases h : textualKey k with
  | error e => rfl
  | ok key =>
      cases key with
      | bytes bs => exact absurd rfl (kind_of_textualKey h)
      | text s =>
          cases v.textual with
          | bytes bs =>
              change (if isTextualKey s then _ else Except.ok (Value.text s, Value.bytes bs)) =
                Except.map _
                  (if isTextualKey s then _ else Except.ok (Value.text s, Value.bytes bs))
              split
              · rfl
              · rfl
          | _ => rfl
      | _ => rfl

theorem kind_of_textualEntry {entry found : Value × Value} (h : textualEntry entry = .ok found) :
    found.1.kind ≠ .bytes := by
  obtain ⟨key, hkey, h⟩ := bind_eq_ok_iff.mp h
  have hfound : found.1 = key := by
    dsimp only at h
    split at h
    · split at h
      · cases h
      · cases h
        rfl
    · cases h
      rfl
  exact hfound ▸ kind_of_textualKey hkey

theorem namedEntry_textual {entry : Value × Value} (h : entry.1.kind ≠ .bytes) :
    namedEntry (Prod.map Value.textual id entry) = namedEntry entry := by
  obtain ⟨k, v⟩ := entry
  cases k with
  | bytes bs => exact absurd rfl h
  | _ => rfl

namespace Envelope

/-- Whether a map is a record, and which, depends on its textual form only. -/
theorem ofValue_textual (entries : List (Value × Value)) :
    ofValue (Value.textual (.map entries)) = ofValue (.map entries) := by
  have hrewrite : textualRecord (entries.map (Prod.map Value.textual Value.textual)) =
      (textualRecord entries).map (List.map (Prod.map Value.textual id)) := by
    unfold textualRecord
    rw [map_mapM, List.mapM_map]
    exact congrArg (entries.mapM ·) (funext fun entry => textualEntry_textual entry.1 entry.2)
  rw [Value.textual, Value.textualEntries_eq_map, ofValue, ofValue, hrewrite]
  cases h : textualRecord entries with
  | error e => rfl
  | ok found =>
      have hkinds := forall_of_mapM_eq_ok h fun _ _ => kind_of_textualEntry
      have hnamed : (found.map (Prod.map Value.textual id)).mapM namedEntry =
          found.mapM namedEntry := by
        rw [List.mapM_map]
        exact mapM_congr_forall₂ (List.forall₂_same.mpr fun entry hmem =>
          namedEntry_textual (hkinds entry hmem))
      change ((found.map (Prod.map Value.textual id)).mapM namedEntry >>= _) =
        (found.mapM namedEntry >>= _)
      rw [hnamed]

theorem decode_of_read {p : List UInt8} {v : Value} (h : MessagePack.read p = .ok (v, []))
    (hsentinel : p ≠ LogRelay.sentinel) : decode p = ofValue v := by
  rw [decode, if_neg hsentinel, h]
  rfl

theorem ofValue_ne_sentinel (v : Value) : ofValue v ≠ .ok .sentinel := by
  intro h
  unfold ofValue at h
  split at h
  · obtain ⟨textual, -, h⟩ := bind_eq_ok_iff.mp h
    obtain ⟨named, -, h⟩ := bind_eq_ok_iff.mp h
    obtain ⟨r, -, h⟩ := bind_eq_ok_iff.mp h
    cases h
  · cases h

/-- Only one message asks the relay to stop. -/
theorem decode_eq_sentinel_iff {p : List UInt8} :
    decode p = .ok .sentinel ↔ p = LogRelay.sentinel := by
  constructor
  · intro h
    by_contra hne
    rw [decode, if_neg hne] at h
    split at h
    · cases h
    · next v rest _ =>
      split at h
      · exact ofValue_ne_sentinel v h
      · cases h
  · intro h
    rw [decode, if_pos h]

/-- A message is undecodable exactly when no value can be read off its front. -/
theorem undecodable_iff {p : List UInt8} {cause : MessagePack.ReadError} :
    decode p = .error (.undecodable cause) ↔ MessagePack.read p = .error cause := by
  unfold decode
  split
  · next hsentinel =>
    have hread : MessagePack.read LogRelay.sentinel = .ok (.nil, []) := rfl
    rw [hsentinel, hread]
    exact ⟨fun h => (nomatch h), fun h => (nomatch h)⟩
  · split
    · next h =>
      rw [h]
      constructor
      · intro h
        cases h
        rfl
      · intro h
        cases h
        rfl
    · next v rest h =>
      rw [h]
      refine ⟨fun h => ?_, fun h => (nomatch h)⟩
      split at h
      · exact absurd h (ofValue_ne_undecodable v cause)
      · cases h

end Envelope

end LogRelay
