import LogRelay.Proofs.Envelope.Verdict
import LogRelay.Proofs.Value.Lifting

/-!
# What a record map is rewritten to

Before a record map is read its byte strings are lifted to the texts that they spell. Entries are
lifted one by one. A key is lifted itself, but what stands inside a key is left alone; a value is
lifted at every depth, in the keys of its maps too. Either some entry is misspelled, and the first
one that is gets reported, or every entry is lifted, and then there is nothing left to lift.
-/

namespace LogRelay

namespace Envelope

/-- The second key is the first, lifted if it is a byte string. -/
inductive LiftsKey : Value → Value → Prop
  | spelled {s : String} : LiftsKey (.bytes (Text.utf8 s)) (.text s)
  | other {k : Value} (bytes : k.kind ≠ .bytes) : LiftsKey k k

/-- The second entry is the first with its key lifted as a key and its value at every depth. -/
structure LiftsEntry (entry found : Value × Value) : Prop where
  key : LiftsKey entry.1 found.1
  value : entry.2.Lifts found.2

variable {entry found : Value × Value} {entries : List (Value × Value)}

theorem textualKey_eq_ok_iff {k key : Value} : textualKey k = .ok key ↔ LiftsKey k key := by
  constructor
  · intro h
    cases k with
    | bytes bs =>
        rw [textualKey] at h
        split at h
        · next s hs =>
          cases h
          rw [← Text.utf8_of_ofUtf8? hs]
          exact .spelled
        · cases h
    | _ =>
        cases h
        exact .other Value.Kind.noConfusion
  · intro h
    cases h with
    | spelled => rw [textualKey, Text.ofUtf8?_utf8]
    | other bytes =>
        cases k with
        | bytes bs => exact absurd rfl bytes
        | _ => rfl

/-- An entry that is not misspelled is lifted. -/
theorem textualEntry_eq_ok_iff :
    textualEntry entry = .ok found ↔ (∀ e, ¬Misspelled entry e) ∧ LiftsEntry entry found := by
  constructor
  · intro h
    obtain ⟨hkey, hvalue⟩ := textualEntry_eq_ok h
    refine ⟨fun e hfault => ?_, textualKey_eq_ok_iff.mp hkey, Value.lifts_iff.mpr hvalue.symm⟩
    cases h.symm.trans ((textualEntry_eq_error_iff entry e).mpr hfault)
  · rintro ⟨hspelled, hkey, hvalue⟩
    cases h : textualEntry entry with
    | error e => exact absurd ((textualEntry_eq_error_iff entry e).mp h) (hspelled e)
    | ok other =>
        obtain ⟨hkey', hvalue'⟩ := textualEntry_eq_ok h
        have hfirst : other.1 = found.1 :=
          Except.ok.inj (hkey'.symm.trans (textualKey_eq_ok_iff.mpr hkey))
        have hsecond : other.2 = found.2 := hvalue'.trans (Value.lifts_iff.mp hvalue)
        rw [Prod.ext hfirst hsecond]

theorem textualRecord_eq_ok_iff {lifted : List (Value × Value)} :
    textualRecord entries = .ok lifted ↔
      Faultless Misspelled entries ∧ List.Forall₂ LiftsEntry entries lifted := by
  rw [textualRecord, mapM_eq_ok_iff]
  simp only [textualEntry_eq_ok_iff, List.forall₂_and_left]
  rfl

/-! ## Lifting again -/

/-- A key that names a field when it is lifted names it before. -/
theorem LiftsKey.spells {k key : Value} {name : String} (h : LiftsKey k key)
    (hname : key.Spells name) : k.Spells name := by
  cases h with
  | spelled =>
      cases hname
      exact .bytes
  | other => exact hname

theorem textualEntry_of_lifted (h : textualEntry entry = .ok found) :
    textualEntry found = .ok found := by
  obtain ⟨hspelled, hlifts⟩ := textualEntry_eq_ok_iff.mp h
  have hvalue := Value.lifts_iff.mp hlifts.value
  have hkind := kind_of_textualEntry h
  obtain ⟨k, v⟩ := entry
  refine textualEntry_eq_ok_iff.mpr ⟨fun e hfault => ?_, .other hkind, Value.lifts_iff.mpr ?_⟩
  · cases hfault with
    | key => exact hkind rfl
    | value named textual invalid =>
        -- a byte string that is still there was there before, under the same name
        obtain ⟨rfl, -⟩ := Value.textual_eq_bytes_iff.mp hvalue
        exact hspelled _ (.value (hlifts.key.spells named) textual invalid)
  · rw [← hvalue, Value.textual_textual]

/-- What becomes of a record map. It is refused exactly if some entry has a key that is not UTF-8 or
is a text field that is not UTF-8, and the first such entry is reported. Otherwise its entries stay
in order and each is lifted: a key if it is a byte string, a value at every depth. Doing this again
changes nothing. -/
theorem textualRecord_lifts (entries : List (Value × Value)) :
    ((∃ e, textualRecord entries = .error e) ↔ ∃ entry ∈ entries, ∃ e, Misspelled entry e) ∧
      (∀ e, textualRecord entries = .error e ↔ FirstFault Misspelled entries e) ∧
      ∀ lifted, textualRecord entries = .ok lifted →
        List.Forall₂ LiftsEntry entries lifted ∧ textualRecord lifted = .ok lifted := by
  have herror : ∀ e, textualRecord entries = .error e ↔ FirstFault Misspelled entries e :=
    fun e => mapM_eq_error_iff textualEntry_eq_error_iff
  refine ⟨?_, herror, fun lifted h => ⟨(textualRecord_eq_ok_iff.mp h).2, ?_⟩⟩
  · simp only [herror]
    exact exists_firstFault_iff
  · refine mapM_eq_ok_iff.mpr (List.forall₂_same.mpr fun found hfound => ?_)
    obtain ⟨entry, -, hentry⟩ := exists_mem_of_forall₂ (mapM_eq_ok_iff.mp h) hfound
    exact textualEntry_of_lifted hentry

example : (Field.all.filter Field.isTextual).map Field.key =
    ["name", "levelname", "msg", "pathname", "filename", "module", "funcName", "exc_text",
      "stack_info", "threadName", "processName", "message"] := by
  decide

/-- A key is a container and stays as it is, whatever stands in it; a byte string that is not UTF-8
stays too, under a key that does not. -/
theorem textualRecord_lifts_containers :
    let entries : List (Value × Value) :=
      [(.bytes [0x6b], .map [(.bytes [0x61], .bytes [0xff])]), (.array [.bytes [0x61]], .bytes [0x62])]
    let lifted : List (Value × Value) :=
      [(.text "k", .map [(.text "a", .bytes [0xff])]), (.array [.bytes [0x61]], .text "b")]
    textualRecord entries = .ok lifted ∧ List.Forall₂ LiftsEntry entries lifted ∧
      textualRecord lifted = .ok lifted := by
  intro entries lifted
  have hlifted : textualRecord entries = .ok lifted := by rfl
  exact ⟨hlifted, (textualRecord_lifts entries).2.2 lifted hlifted⟩

end Envelope

end LogRelay
