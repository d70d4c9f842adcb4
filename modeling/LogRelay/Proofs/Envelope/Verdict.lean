import LogRelay.Proofs.Record.Stability

/-!
# What is wrong with a record map

A record map is judged in three passes, and the first entry that fails a pass is reported: first the
keys and the texts have to be UTF-8, then every key has to be a text, and then every value has to
obey the rule of its field. So a late entry that is misspelled is reported before an early one that
is mistyped. A map without fault is a record.
-/

namespace LogRelay

namespace Value

/-- The value is the text, or the byte string that spells it. -/
inductive Spells : Value → String → Prop
  | text {s : String} : Spells (.text s) s
  | bytes {s : String} : Spells (.bytes (Text.utf8 s)) s

end Value

/-- The rule lets the value stand under a field. -/
def Field.Rule.Allows : Field.Rule → Value → Prop
  | .text, v => v = .nil ∨ ∃ s, v.Spells s
  | .integer, v => v = .nil ∨ ∃ n, v.Counts n ∧ n < 2 ^ 63
  | .unsigned, v => v = .nil ∨ ∃ n, v.Counts n ∧ 0 ≤ n
  | .float, v => v = .nil ∨ (∃ x, v = .float x) ∨ ∃ n, v.Counts n
  | .anything, _ => True

namespace Envelope

/-- A byte string that has to be UTF-8 and is not: a key, or the value of a field that is text. -/
inductive Misspelled : Value × Value → MalformedRecord → Prop
  | key {bs : List UInt8} {v : Value} (invalid : Text.ofUtf8? bs = none) :
      Misspelled (.bytes bs, v)
        (.invalidKey ("non UTF-8 bytes b\x27" ++ Text.escapeBytes bs ++ "\x27"))
  | value {k : Value} {field : Field} {bs : List UInt8} (named : k.Spells field.key)
      (textual : field.isTextual = true) (invalid : Text.ofUtf8? bs = none) :
      Misspelled (k, .bytes bs) (.invalidUtf8 field.key)

/-- A key that is neither a text nor a byte string. -/
inductive Unnamed : Value × Value → MalformedRecord → Prop
  | key {k v : Value} (text : k.kind ≠ .text) (bytes : k.kind ≠ .bytes) :
      Unnamed (k, v) (.invalidKey k.kind.name)

/-- A value that breaks the rule of its field. The report says what it is in textual form. -/
inductive Mistyped : Value × Value → MalformedRecord → Prop
  | value {k v : Value} {field : Field} (named : k.Spells field.key)
      (broken : ¬field.rule.Allows v) :
      Mistyped (k, v) (.fieldType field field.rule v.textual.kind)

/-- What is reported about a record map. -/
inductive Verdict (entries : List (Value × Value)) (e : MalformedRecord) : Prop
  | misspelled (first : FirstFault Misspelled entries e)
  | unnamed (spelled : Faultless Misspelled entries) (first : FirstFault Unnamed entries e)
  | mistyped (spelled : Faultless Misspelled entries) (named : Faultless Unnamed entries)
      (first : FirstFault Mistyped entries e)

end Envelope

/-! ## Textual forms -/

namespace Value

variable {v : Value} {s : String} {bs : List UInt8}

theorem textual_eq_text_iff : v.textual = .text s ↔ v.Spells s := by
  constructor
  · intro h
    cases v with
    | text s' =>
        cases h
        exact .text
    | bytes bs =>
        rw [textual, ofBytes] at h
        split at h
        · next s' hs =>
          cases h
          rw [← Text.utf8_of_ofUtf8? hs]
          exact .bytes
        · cases h
    | _ => cases h
  · intro h
    cases h with
    | text => rfl
    | bytes => rw [textual, ofBytes, Text.ofUtf8?_utf8]

theorem textual_eq_bytes_iff : v.textual = .bytes bs ↔ v = .bytes bs ∧ Text.ofUtf8? bs = none := by
  constructor
  · intro h
    refine ⟨?_, ofUtf8?_of_textual_eq_bytes h⟩
    cases v with
    | bytes raw =>
        rcases ofBytes_cases raw with ⟨s, hs⟩ | ⟨hs, -⟩
        · cases hs.symm.trans h
        · exact hs.symm.trans h
    | _ => cases h
  · rintro ⟨rfl, hnone⟩
    rw [textual, ofBytes, hnone]

theorem Spells.kind (h : v.Spells s) : v.kind = .text ∨ v.kind = .bytes := by
  cases h with
  | text => exact .inl rfl
  | bytes => exact .inr rfl

theorem Spells.unique {t : String} (h : v.Spells s) (ht : v.Spells t) : s = t := by
  have htextual := textual_eq_text_iff.mpr h
  rw [textual_eq_text_iff.mpr ht] at htextual
  exact (Value.text.inj htextual).symm

end Value

theorem isTextualKey_iff {k : String} :
    isTextualKey k = true ↔ ∃ field : Field, field.key = k ∧ field.isTextual = true := by
  unfold isTextualKey
  constructor
  · intro h
    cases hfield : Field.ofKey? k with
    | none => simp [hfield] at h
    | some field => exact ⟨field, Field.key_of_ofKey? hfield, by simpa [hfield] using h⟩
  · rintro ⟨field, rfl, h⟩
    simp [Field.ofKey?_key, h]

namespace Envelope

/-! ## The first pass -/

theorem textualKey_eq_error_iff {k : Value} {e : MalformedRecord} :
    textualKey k = .error e ↔ ∃ bs, k = .bytes bs ∧ Text.ofUtf8? bs = none ∧
      e = .invalidKey ("non UTF-8 bytes b\x27" ++ Text.escapeBytes bs ++ "\x27") := by
  cases k with
  | bytes bs =>
      cases hbs : Text.ofUtf8? bs with
      | none => simp [textualKey, hbs, eq_comm]
      | some s => simp [textualKey, hbs]
  | _ => simp [textualKey]

/-- A key that passes is the text that it spells, or it is no string at all. -/
theorem textualKey_cases {k key : Value} (h : textualKey k = .ok key) :
    (∃ s, k.Spells s ∧ key = .text s) ∨ (k.kind ≠ .text ∧ k.kind ≠ .bytes ∧ key = k) := by
  cases k with
  | bytes bs =>
      rw [textualKey] at h
      split at h
      · next s hs =>
        rw [← Text.utf8_of_ofUtf8? hs]
        exact .inl ⟨s, .bytes, (Except.ok.inj h).symm⟩
      · cases h
  | text s => exact .inl ⟨s, .text, (Except.ok.inj h).symm⟩
  | _ => exact .inr ⟨Value.Kind.noConfusion, Value.Kind.noConfusion, (Except.ok.inj h).symm⟩

theorem textualKey_of_spells {k : Value} {s : String} (h : k.Spells s) :
    textualKey k = .ok (.text s) := by
  cases h with
  | text => rfl
  | bytes => rw [textualKey, Text.ofUtf8?_utf8]

theorem textualEntry_eq_error_iff (entry : Value × Value) (e : MalformedRecord) :
    textualEntry entry = .error e ↔ Misspelled entry e := by
  obtain ⟨k, v⟩ := entry
  rw [textualEntry, bind_eq_error_iff, textualKey_eq_error_iff]
  constructor
  · rintro (⟨bs, rfl, hbs, rfl⟩ | ⟨key, hkey, h⟩)
    · exact .key hbs
    · dsimp only at h
      split at h
      · next s bs hv =>
        obtain ⟨rfl, hbs⟩ := Value.textual_eq_bytes_iff.mp hv
        split at h
        · next htextual =>
          cases h
          obtain ⟨field, rfl, hfield⟩ := isTextualKey_iff.mp htextual
          rcases textualKey_cases hkey with ⟨s, hs, heq⟩ | ⟨hkind, -, heq⟩
          · cases heq
            exact .value hs hfield hbs
          · exact absurd (congrArg Value.kind heq.symm) hkind
        · cases h
      · cases h
  · intro h
    cases h with
    | key hbs => exact .inl ⟨_, rfl, hbs, rfl⟩
    | @value _ field bs hk hfield hbs =>
        refine .inr ⟨.text field.key, textualKey_of_spells hk, ?_⟩
        dsimp only
        rw [Value.textual_eq_bytes_iff.mpr ⟨rfl, hbs⟩]
        exact if_pos (isTextualKey_iff.mpr ⟨field, rfl, hfield⟩)

/-! ## The second pass -/

theorem namedEntry_eq_error_iff {entry found : Value × Value} (h : textualEntry entry = .ok found)
    (e : MalformedRecord) : Unnamed entry e ↔ namedEntry found = .error e := by
  obtain ⟨k, v⟩ := entry
  obtain ⟨key, w⟩ := found
  obtain ⟨hkey, -⟩ := textualEntry_eq_ok h
  rcases textualKey_cases hkey with ⟨s, hs, heq⟩ | ⟨htext, hbytes, heq⟩
  · cases heq
    constructor
    · intro hunnamed
      cases hunnamed with
      | key htext hbytes => exact (hs.kind.elim htext hbytes).elim
    · intro h
      cases h
  · cases heq
    constructor
    · intro hunnamed
      cases hunnamed
      cases k with
      | text s => exact absurd rfl htext
      | _ => rfl
    · intro h
      cases namedEntry_eq_error h
      exact .key htext hbytes

/-- An entry that passes has the text that its key spells for a name. -/
theorem namedEntry_eq_ok {entry found : Value × Value} {field : String × Value}
    (h : textualEntry entry = .ok found) (hfield : namedEntry found = .ok field) :
    entry.1.Spells field.1 ∧ field.2 = entry.2.textual := by
  obtain ⟨hkey, hvalue⟩ := textualEntry_eq_ok h
  refine ⟨?_, (namedEntry_snd hfield).trans hvalue⟩
  rcases textualKey_cases hkey with ⟨s, hs, heq⟩ | ⟨htext, -, heq⟩
  · rw [namedEntry, heq] at hfield
    cases hfield
    exact hs
  · unfold namedEntry at hfield
    split at hfield
    · next heq' => exact absurd (congrArg Value.kind (heq.symm.trans heq')) htext
    · cases hfield

end Envelope

/-! ## The third pass -/

namespace LogRecord

/-- Only to a text does it matter whether byte strings are spelled out. -/
theorem converts_textual {rule : Field.Rule} (h : rule ≠ .text) (v : Value) :
    converts rule v.textual = converts rule v := by
  cases v with
  | bytes bs =>
      rcases Value.ofBytes_cases bs with ⟨s, hs⟩ | ⟨hs, -⟩ <;>
        cases rule <;> simp_all [Value.textual, converts, signed?, unsigned?, float?]
  | _ => cases rule <;> rfl

/-- A value as it is read obeys a rule if it can be set in textual form. -/
theorem allows_iff {rule : Field.Rule} {v : Value} (large : ∀ u, v = .uint u → 2 ^ 63 ≤ u.toNat) :
    rule.Allows v ↔ v.textual = .nil ∨ converts rule v.textual = true := by
  rw [Value.textual_eq_nil_iff]
  cases rule with
  | text =>
      have htext : (∃ s, v.Spells s) ↔ v.textual.text?.isSome = true := by
        simp only [← Value.textual_eq_text_iff]
        cases v.textual <;> simp [Value.text?]
      rw [Field.Rule.Allows, htext, converts]
  | integer =>
      rw [Field.Rule.Allows, converts_textual (by decide)]
      refine or_congr_right ?_
      cases v with
      | int i => simpa [Value.counts_iff, converts, signed?] using i.toInt_lt
      | uint u =>
          have hlarge := large u rfl
          simp [Value.counts_iff, converts, signed?]
          omega
      | _ => simp [Value.counts_iff, converts, signed?]
  | unsigned =>
      rw [Field.Rule.Allows, converts_textual (by decide)]
      refine or_congr_right ?_
      cases v with
      | int i => simp [Value.counts_iff, converts, unsigned?, Int64.le_iff_toInt_le]
      | _ => simp [Value.counts_iff, converts, unsigned?]
  | float =>
      rw [Field.Rule.Allows, converts_textual (by decide)]
      refine or_congr_right ?_
      cases v <;> simp [Value.counts_iff, converts, float?]
  | anything => simp [Field.Rule.Allows, converts]

end LogRecord

namespace Envelope

/-- Under a name that its key spells, an entry is set or put, unless it is mistyped. -/
theorem add_eq_error_iff {entry : Value × Value} {field : String × Value}
    (large : ∀ u, entry.2 = .uint u → 2 ^ 63 ≤ u.toNat)
    (h : entry.1.Spells field.1 ∧ field.2 = entry.2.textual) (d : LogRecord.Draft)
    (e : MalformedRecord) : Mistyped entry e ↔ d.add field = .error e := by
  obtain ⟨k, v⟩ := entry
  obtain ⟨name, w⟩ := field
  obtain ⟨hname, hvalue⟩ := h
  dsimp only at large hname hvalue
  subst hvalue
  unfold LogRecord.Draft.add
  constructor
  · intro h
    cases h with
    | @value _ _ field hfield hbroken =>
        obtain rfl := hname.unique hfield
        rw [LogRecord.allows_iff large, not_or, Bool.not_eq_true] at hbroken
        rw [Field.ofKey?_key]
        exact LogRecord.Draft.set_eq_error_iff.mpr ⟨hbroken.1, hbroken.2, rfl⟩
  · intro h
    split at h
    · next field hfield =>
      obtain ⟨hnil, hbroken, rfl⟩ := LogRecord.Draft.set_eq_error_iff.mp h
      obtain rfl := Field.key_of_ofKey? hfield
      refine .value hname ?_
      rw [LogRecord.allows_iff large, not_or, Bool.not_eq_true]
      exact ⟨hnil, hbroken⟩
    · cases h

/-! ## All passes -/

variable {entries found : List (Value × Value)} {fields : List (String × Value)}

theorem unnamed_iff_of_textual (hfound : textualRecord entries = .ok found) :
    List.Forall₂ (fun entry found => ∀ e, Unnamed entry e ↔ namedEntry found = .error e) entries
      found :=
  (mapM_eq_ok_iff.mp hfound).imp fun _ _ h e => namedEntry_eq_error_iff h e

theorem named_eq_error_iff (hfound : textualRecord entries = .ok found) (e : MalformedRecord) :
    found.mapM namedEntry = .error e ↔ FirstFault Unnamed entries e :=
  (mapM_eq_error_iff fun _ _ => .rfl).trans (firstFault_congr (unnamed_iff_of_textual hfound)).symm

theorem exists_named_iff (hfound : textualRecord entries = .ok found) :
    (∃ fields, found.mapM namedEntry = .ok fields) ↔ Faultless Unnamed entries := by
  rw [exists_mapM_eq_ok_iff fun _ _ => .rfl, faultless_iff_forall_not_firstFault,
    faultless_iff_forall_not_firstFault]
  exact forall_congr' fun e => not_congr (firstFault_congr (unnamed_iff_of_textual hfound)).symm

theorem ofFields_eq_error_iff
    (large : ∀ entry ∈ entries, ∀ u, entry.2 = .uint u → 2 ^ 63 ≤ u.toNat)
    (hfound : textualRecord entries = .ok found) (hfields : found.mapM namedEntry = .ok fields)
    (e : MalformedRecord) : LogRecord.ofFields fields = .error e ↔ FirstFault Mistyped entries e := by
  have hnames : List.Forall₂ (fun entry field => entry.1.Spells field.1 ∧
      field.2 = entry.2.textual) entries fields := by
    refine forall₂_comp ?_ (mapM_eq_ok_iff.mp hfound) (mapM_eq_ok_iff.mp hfields)
    exact fun _ _ _ h hfield => namedEntry_eq_ok h hfield
  have hmistyped : List.Forall₂ (fun entry field => ∀ e,
      Mistyped entry e ↔ LogRecord.Draft.add {} field = .error e) entries fields :=
    ((List.forall₂_and_left _ _).mpr ⟨large, hnames⟩).imp fun _ _ h => add_eq_error_iff h.1 h.2 {}
  rw [LogRecord.ofFields, map_eq_error_iff, foldlM_eq_error_iff LogRecord.Draft.add_error_congr]
  exact (firstFault_congr hmistyped).symm

/-- What is reported about a map that was read. -/
theorem ofValue_eq_error_iff
    (large : ∀ entry ∈ entries, ∀ u, entry.2 = .uint u → 2 ^ 63 ≤ u.toNat)
    (e : MalformedRecord) : ofValue (.map entries) = .error e ↔ Verdict entries e := by
  have hmisspelled : textualRecord entries = .error e ↔ FirstFault Misspelled entries e :=
    mapM_eq_error_iff textualEntry_eq_error_iff
  have hspelled : (∃ found, textualRecord entries = .ok found) ↔ Faultless Misspelled entries :=
    exists_mapM_eq_ok_iff textualEntry_eq_error_iff
  rw [ofValue, bind_eq_error_iff, hmisspelled]
  constructor
  · rintro (hfirst | ⟨found, hfound, h⟩)
    · exact .misspelled hfirst
    rcases bind_eq_error_iff.mp h with hfirst | ⟨fields, hfields, h⟩
    · exact .unnamed (hspelled.mp ⟨found, hfound⟩) ((named_eq_error_iff hfound e).mp hfirst)
    rcases bind_eq_error_iff.mp h with hfirst | ⟨r, -, h⟩
    · exact .mistyped (hspelled.mp ⟨found, hfound⟩) ((exists_named_iff hfound).mp ⟨fields, hfields⟩)
        ((ofFields_eq_error_iff large hfound hfields e).mp hfirst)
    · cases h
  · rintro (hfirst | ⟨hclear, hfirst⟩ | ⟨hclear, hnamed, hfirst⟩)
    · exact .inl hfirst
    · obtain ⟨found, hfound⟩ := hspelled.mpr hclear
      refine .inr ⟨found, hfound, bind_eq_error_iff.mpr (.inl ?_)⟩
      exact (named_eq_error_iff hfound e).mpr hfirst
    · obtain ⟨found, hfound⟩ := hspelled.mpr hclear
      obtain ⟨fields, hfields⟩ := (exists_named_iff hfound).mpr hnamed
      refine .inr ⟨found, hfound, bind_eq_error_iff.mpr (.inr ⟨fields, hfields, ?_⟩)⟩
      exact bind_eq_error_iff.mpr (.inl ((ofFields_eq_error_iff large hfound hfields e).mpr hfirst))

theorem forall_not_verdict_iff : (∀ e, ¬Verdict entries e) ↔
    Faultless Misspelled entries ∧ Faultless Unnamed entries ∧ Faultless Mistyped entries := by
  simp only [faultless_iff_forall_not_firstFault]
  constructor
  · intro h
    have hspelled : ∀ e, ¬FirstFault Misspelled entries e := fun e hfirst => h e (.misspelled hfirst)
    have hclear := faultless_iff_forall_not_firstFault.mpr hspelled
    have hnamed : ∀ e, ¬FirstFault Unnamed entries e := fun e hfirst => h e (.unnamed hclear hfirst)
    refine ⟨hspelled, hnamed, fun e hfirst => h e (.mistyped hclear ?_ hfirst)⟩
    exact faultless_iff_forall_not_firstFault.mpr hnamed
  · rintro ⟨hspelled, hnamed, htyped⟩ e (hfirst | ⟨-, hfirst⟩ | ⟨-, -, hfirst⟩)
    · exact hspelled e hfirst
    · exact hnamed e hfirst
    · exact htyped e hfirst

/-- What is reported is a fault of one of the entries. -/
theorem Verdict.exists_mem {e : MalformedRecord} (h : Verdict entries e) :
    ∃ entry ∈ entries, Misspelled entry e ∨ Unnamed entry e ∨
      (∀ e, ¬Misspelled entry e) ∧ Mistyped entry e := by
  rcases h with hfirst | ⟨-, hfirst⟩ | ⟨hspelled, -, hfirst⟩
  · obtain ⟨entry, hentry, hfault⟩ := hfirst.exists_mem
    exact ⟨entry, hentry, .inl hfault⟩
  · obtain ⟨entry, hentry, hfault⟩ := hfirst.exists_mem
    exact ⟨entry, hentry, .inr (.inl hfault)⟩
  · obtain ⟨entry, hentry, hfault⟩ := hfirst.exists_mem
    exact ⟨entry, hentry, .inr (.inr ⟨hspelled entry hentry, hfault⟩)⟩

theorem exists_record_iff {v : Value} :
    (∃ r, ofValue v = .ok (.record r)) ↔ ∀ e, ofValue v ≠ .error e := by
  cases h : ofValue v with
  | error e => simp
  | ok found =>
      cases found with
      | sentinel => exact absurd h (ofValue_ne_sentinel v)
      | record r => simp

/-- An entry under a field that has to be text is not mistyped as a byte string, for as such it is
misspelled. -/
theorem Mistyped.ne_bytes {entry : Value × Value} {field : Field} {e : MalformedRecord}
    (h : Mistyped entry e) (hspelled : ∀ e, ¬Misspelled entry e) :
    e ≠ .fieldType field .text .bytes := by
  cases h with
  | @value k v field' named broken =>
      intro heq
      injection heq with _ hrule hkind
      have hv : ∃ bs, v.textual = .bytes bs := by
        cases hv : v.textual with
        | bytes bs => exact ⟨bs, rfl⟩
        | _ => simp [hv, Value.kind] at hkind
      obtain ⟨bs, hv⟩ := hv
      obtain ⟨rfl, hinvalid⟩ := Value.textual_eq_bytes_iff.mp hv
      exact hspelled _ (.value named (by simp [Field.isTextual, hrule]) hinvalid)

/-! ## Messages -/

variable {p : List UInt8} {e : MalformedRecord}

theorem two_pow_le_of_read {rest : List UInt8}
    (h : MessagePack.read p = .ok (.map entries, rest)) :
    ∀ entry ∈ entries, ∀ u, entry.2 = .uint u → 2 ^ 63 ≤ u.toNat := by
  obtain ⟨encoding, -, hencodes, -⟩ := MessagePack.read_eq_ok_iff.mp h
  intro entry hentry u hu
  obtain ⟨part, hpart⟩ := hencodes.of_occurs (.value hentry .self)
  rw [hu] at hpart
  exact MessagePack.two_pow_le_of_encodes_uint hpart

/-- Nil has one encoding only, the sentinel. -/
theorem eq_sentinel_of_read_nil (h : MessagePack.read p = .ok (.nil, [])) :
    p = LogRelay.sentinel := by
  obtain ⟨encoding, rfl, ⟨t, hwritten, hmeans⟩, -⟩ := MessagePack.read_eq_ok_iff.mp h
  cases hmeans
  cases hwritten
  rfl

/-- A report is about the bytes of a message, or else about the value that is all of it. -/
theorem decode_eq_error_cases (h : decode p = .error e) :
    (∃ cause, e = .undecodable cause) ∨ (∃ count, e = .trailingBytes count) ∨
      ∃ v, MessagePack.read p = .ok (v, []) ∧ p ≠ LogRelay.sentinel ∧ ofValue v = .error e := by
  unfold decode at h
  split at h
  · cases h
  · next hsentinel =>
    split at h
    · next cause _ => exact .inl ⟨cause, (Except.error.inj h).symm⟩
    · next v rest hread =>
      split at h
      · next hrest =>
        rw [List.isEmpty_iff.mp hrest] at hread
        exact .inr (.inr ⟨v, hread, hsentinel, h⟩)
      · exact .inr (.inl ⟨_, (Except.error.inj h).symm⟩)

/-- What is reported about a message that is a map: the first entry that is misspelled, or if there
is none the first that has no name, or else the first that is mistyped; without any such entry the
message is a record. That nil is no map is never reported, nor that a text was expected where bytes
were found. -/
theorem decode_reports_first (p : List UInt8) :
    (∀ entries, MessagePack.read p = .ok (.map entries, []) →
      (∀ e, decode p = .error e ↔ Verdict entries e) ∧
        ((∃ r, decode p = .ok (.record r)) ↔
          Faultless Misspelled entries ∧ Faultless Unnamed entries ∧
            Faultless Mistyped entries)) ∧
      decode p ≠ .error (.notAMapping .nil) ∧
      ∀ field, decode p ≠ .error (.fieldType field .text .bytes) := by
  refine ⟨fun entries hread => ?_, fun h => ?_, fun field h => ?_⟩
  · have hsentinel : p ≠ LogRelay.sentinel := by
      rintro rfl
      cases hread
    have hverdict := ofValue_eq_error_iff (two_pow_le_of_read hread)
    rw [decode_of_read hread hsentinel, exists_record_iff, ← forall_not_verdict_iff]
    exact ⟨hverdict, forall_congr' fun e => not_congr (hverdict e)⟩
  · rcases decode_eq_error_cases h with ⟨_, h⟩ | ⟨_, h⟩ | ⟨v, hread, hsentinel, h⟩
    · cases h
    · cases h
    · cases v with
      | nil => exact hsentinel (eq_sentinel_of_read_nil hread)
      | map entries =>
          have hverdict := (ofValue_eq_error_iff (two_pow_le_of_read hread) _).mp h
          obtain ⟨entry, -, hfault | hfault | ⟨-, hfault⟩⟩ := hverdict.exists_mem <;> cases hfault
      | _ => cases h
  · rcases decode_eq_error_cases h with ⟨_, h⟩ | ⟨_, h⟩ | ⟨v, hread, hsentinel, h⟩
    · cases h
    · cases h
    · cases v with
      | map entries =>
          have hverdict := (ofValue_eq_error_iff (two_pow_le_of_read hread) _).mp h
          obtain ⟨entry, -, hfault | hfault | ⟨hspelled, hfault⟩⟩ := hverdict.exists_mem
          · cases hfault
          · cases hfault
          · exact hfault.ne_bytes hspelled rfl
      | _ => cases h

set_option maxRecDepth 20000 in
/-- A line number that is a text and a key that is a number stand before a name that is not UTF-8,
and the name is reported. -/
theorem decode_reports_first_late :
    let p : List UInt8 := [0x83, 0xa6, 0x6c, 0x69, 0x6e, 0x65, 0x6e, 0x6f, 0xa1, 0x78, 0x01, 0xc0,
      0xa4, 0x6e, 0x61, 0x6d, 0x65, 0xc4, 0x01, 0xff]
    MessagePack.read p =
        .ok (.map [(.text "lineno", .text "x"), (.int 1, .nil), (.text "name", .bytes [0xff])], []) ∧
      decode p = .error (.invalidUtf8 "name") := by
  intro p
  have hread : MessagePack.read p = .ok
      (.map [(.text "lineno", .text "x"), (.int 1, .nil), (.text "name", .bytes [0xff])], []) := by
    rfl
  refine ⟨hread, (((decode_reports_first p).1 _ hread).1 _).mpr (.misspelled ?_)⟩
  refine .later nofun (.later nofun (.here ?_))
  exact @Misspelled.value _ .name _ .text rfl (by decide)

end Envelope

end LogRelay
