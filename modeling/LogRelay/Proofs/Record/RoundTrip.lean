import LogRelay.Proofs.Envelope.Meaning
import LogRelay.Proofs.MessagePack.Packing
import LogRelay.Proofs.Value.Lifting
import Mathlib.Data.List.Nodup

/-!
# Records over the wire

A record that is sent comes back in canonical form: its arguments and extra fields are rewritten,
and all other fields are what they were. `ReadAs` says what that means for two records, without
computing one from the other. The well-known fields are set one after another and then
the extra ones are put, each after those before it, so both parts are runs of one step that is
known.
-/

namespace LogRelay

/-! ## Canonical forms -/

/-- The extra fields with a function applied to every value. -/
def Extra.map (f : Value → Value) (extra : Extra) : Extra where
  entries := extra.entries.map (Prod.map id f)
  sorted := extra.sorted.map _ fun _ _ h => h

/-- The record as a reader understands it. Only the arguments and the extra fields change, and
arguments that are nil become absent. -/
def LogRecord.canonical (r : LogRecord) : LogRecord :=
  { r with
    args := r.args.bind fun v => ofArgs v.canonical
    extra := r.extra.map Value.canonical }

namespace LogRecord

/-- Arguments that are nil are read as absent; of others the integers that fit become signed, and
all byte strings that spell texts are lifted. -/
inductive ReadsArgs : Option Value → Option Value → Prop
  | absent : ReadsArgs none none
  | nil : ReadsArgs (some .nil) none
  | lifted {v w : Value} (nil : v ≠ .nil) (lifts : v.signed.Lifts w) : ReadsArgs (some v) (some w)

/-- An extra field keeps its name, and its value is read like an argument. -/
structure ReadsExtra (sent found : String × Value) : Prop where
  key : sent.1 = found.1
  value : sent.2.signed.Lifts found.2

/-- The second record is what a reader makes of the first. -/
structure ReadAs (r found : LogRecord) : Prop where
  args : ReadsArgs r.args found.args
  extra : List.Forall₂ ReadsExtra r.extra.entries found.extra.entries
  /-- All other fields stay as they are. -/
  others : { r with args := none, extra := .empty } = { found with args := none, extra := .empty }

end LogRecord

/-! ## Putting extra fields in order -/

namespace Extra

theorem put_of_forall_lt {key : String} {value : Value} {entries : List (String × Value)}
    (h : ∀ entry ∈ entries, entry.1 < key) : put key value entries = entries ++ [(key, value)] := by
  induction entries with
  | nil => rfl
  | cons entry rest ih =>
      obtain ⟨hhead, htail⟩ := List.forall_mem_cons.mp h
      have hne : key ≠ entry.1 := fun heq => String.lt_irrefl _ (heq ▸ hhead)
      rw [put, if_neg (String.lt_asymm hhead), if_neg hne, ih htail,
        List.cons_append]

theorem nodup_keys (extra : Extra) : (extra.entries.map Prod.fst).Nodup := by
  refine List.pairwise_map.mpr (extra.sorted.imp ?_)
  rintro a b hlt heq
  exact String.lt_irrefl _ (heq ▸ hlt)

theorem nodup_entries (extra : Extra) : extra.entries.Nodup :=
  List.Nodup.of_map _ extra.nodup_keys

theorem ext_entries {a b : Extra} (h : a.entries = b.entries) : a = b := by
  cases a
  cases b
  cases h
  rfl

end Extra

namespace LogRecord

/-! ## What a record is read as -/

theorem ofArgs_canonical_of_ne_nil {v : Value} (h : v ≠ .nil) :
    ofArgs v.canonical = some v.canonical := by
  have hcanonical : v.canonical ≠ .nil := mt Value.canonical_eq_nil_iff.mp h
  cases hv : v.canonical with
  | nil => exact absurd hv hcanonical
  | _ => rfl

theorem readsArgs_iff {args found : Option Value} :
    ReadsArgs args found ↔ (args.bind fun v => ofArgs v.canonical) = found := by
  constructor
  · intro h
    cases h with
    | absent => rfl
    | nil => rfl
    | lifted nil lifts =>
        rw [Option.bind_some, ofArgs_canonical_of_ne_nil nil, ← Value.lifts_iff.mp lifts]
        rfl
  · rintro rfl
    cases args with
    | none => exact .absent
    | some v =>
        by_cases hnil : v = .nil
        · rw [hnil]
          exact .nil
        · rw [Option.bind_some, ofArgs_canonical_of_ne_nil hnil]
          exact .lifted hnil (Value.lifts_iff.mpr rfl)

theorem readsExtra_iff {sent found : String × Value} :
    ReadsExtra sent found ↔ Prod.map id Value.canonical sent = found := by
  constructor
  · rintro ⟨hkey, hvalue⟩
    exact Prod.ext hkey (Value.lifts_iff.mp hvalue)
  · rintro rfl
    exact ⟨rfl, Value.lifts_iff.mpr rfl⟩

/-- A record is read as its canonical form and nothing else. -/
theorem readAs_iff {r found : LogRecord} : r.ReadAs found ↔ r.canonical = found := by
  have hentries : List.Forall₂ ReadsExtra r.extra.entries found.extra.entries ↔
      (r.extra.map Value.canonical).entries = found.extra.entries :=
    forall₂_iff_map_eq fun _ _ _ => readsExtra_iff
  constructor
  · rintro ⟨hargs, hextra, hothers⟩
    have hargs' := readsArgs_iff.mp hargs
    have hextra' := Extra.ext_entries (hentries.mp hextra)
    cases r
    cases found
    simp_all [canonical]
  · rintro rfl
    exact ⟨readsArgs_iff.mpr rfl, hentries.mpr rfl, rfl⟩

namespace Draft

/-- The draft with other extra fields. -/
def withExtra (d : Draft) (extra : Extra) : Draft :=
  { d with record := { d.record with extra } }

theorem add_extra {d : Draft} {entry : String × Value} (h : Field.ofKey? entry.1 = none) :
    d.add entry = .ok (d.withExtra (d.record.extra.insert entry.1 entry.2)) := by
  rw [add, h]
  rfl

/-- Extra fields that come in order after those that are there are appended to them. -/
theorem foldlM_add_extra {entries : List (String × Value)} {d : Draft} {extra : Extra}
    (hkeys : ∀ entry ∈ entries, Field.ofKey? entry.1 = none)
    (hextra : extra.entries = d.record.extra.entries ++ entries) :
    entries.foldlM add d = .ok (d.withExtra extra) := by
  induction entries generalizing d with
  | nil =>
      rw [List.append_nil] at hextra
      rw [Extra.ext_entries hextra]
      rfl
  | cons entry rest ih =>
      obtain ⟨hhead, htail⟩ := List.forall_mem_cons.mp hkeys
      have hsorted := extra.sorted
      rw [hextra] at hsorted
      have hlast : ∀ earlier ∈ d.record.extra.entries, earlier.1 < entry.1 := fun earlier hmem =>
        (List.pairwise_append.mp hsorted).2.2 earlier hmem entry List.mem_cons_self
      have hput : (d.record.extra.insert entry.1 entry.2).entries =
          d.record.extra.entries ++ [entry] := Extra.put_of_forall_lt hlast
      rw [List.foldlM_cons, add_extra hhead]
      change rest.foldlM add (d.withExtra _) = _
      refine ih htail ?_
      rw [hextra]
      change _ = (d.record.extra.insert entry.1 entry.2).entries ++ rest
      rw [hput, List.append_assoc, List.singleton_append]

end Draft

/-! ## Setting the well-known fields -/

section

variable (field : Field)

theorem lift_of_convert {α : Type} {convert : Value → Option α} {v : Value} {a : α}
    (hkind : v.kind ≠ .nil) (h : convert v = some a) : lift field convert v = .ok (some a) := by
  unfold lift
  split
  · exact absurd rfl hkind
  · rw [h]

theorem lift_ofText? (s : Option String) :
    lift field Value.text? (ofText? s).canonical = .ok s := by
  cases s with
  | none => rfl
  | some s => rfl

theorem lift_int (i : Option Int64) :
    lift field signed? (i.elim .nil .int : Value).canonical = .ok i := by
  cases i with
  | none => rfl
  | some i => rfl

theorem lift_float (x : Option Binary64) :
    lift field float? (x.elim .nil .float : Value).canonical = .ok x := by
  cases x with
  | none => rfl
  | some x => rfl

theorem unsigned?_ofNat {u : UInt64} (h : u.toNat < 2 ^ 63) :
    unsigned? (.int (Int64.ofNat u.toNat)) = some u := by
  have hnonneg : 0 ≤ Int64.ofNat u.toNat := by
    rw [Int64.le_iff_toInt_le, Int64.toInt_ofNat_of_lt h]
    exact Int.natCast_nonneg _
  have hbits : (Int64.ofNat u.toNat).toUInt64 = UInt64.ofNat u.toNat := rfl
  rw [unsigned?, if_pos hnonneg, hbits, UInt64.ofNat_toNat]

theorem lift_uint (u : Option UInt64) :
    lift field unsigned? (u.elim .nil .uint : Value).canonical = .ok u := by
  cases u with
  | none => rfl
  | some u =>
      change lift field unsigned? (Value.uint u).canonical = .ok (some u)
      unfold Value.canonical Value.signed
      split
      · next hsmall =>
        refine lift_of_convert field ?_ (unsigned?_ofNat hsmall)
        intro h
        cases h
      · rfl

theorem ofArgs_canonical (args : Option Value) :
    ofArgs (args.getD .nil).canonical = args.bind fun v => ofArgs v.canonical := by
  cases args with
  | none => rfl
  | some v => rfl

end

namespace Draft

theorem add_wellKnown (d : Draft) (field : Field) (v : Value) :
    d.add (field.key, v) = d.set field v := by
  rw [add, Field.ofKey?_key]

/-- The draft of which a record without extra fields is finished. -/
def ofWellKnown (r : LogRecord) : Draft where
  record := { r with levelno := blank.levelno, levelname := blank.levelname, extra := .empty }
  levelno := some r.levelno
  levelname := some r.levelname

theorem foldlM_add_wellKnown (r : LogRecord) :
    (Field.all.map fun field => (field.key, (r.fieldValue field).canonical)).foldlM add {} =
      .ok (ofWellKnown r.canonical) := by
  rw [List.foldlM_map]
  simp only [add_wellKnown, Field.all, List.foldlM_cons, List.foldlM_nil, fieldValue, set,
    lift_ofText?, lift_int, lift_float, lift_uint, ofArgs_canonical]
  rfl

end Draft

/-- A record is built anew from its own fields in canonical form. -/
theorem ofFields_toFields {r : LogRecord}
    (hkeys : ∀ entry ∈ r.extra.entries, Field.ofKey? entry.1 = none) :
    ofFields (r.toFields.map (Prod.map id Value.canonical)) = .ok r.canonical := by
  have hextra : (r.extra.entries.map (Prod.map id Value.canonical)).foldlM Draft.add
      (Draft.ofWellKnown r.canonical) =
        .ok ((Draft.ofWellKnown r.canonical).withExtra r.canonical.extra) :=
    Draft.foldlM_add_extra (List.forall_mem_map.mpr hkeys) rfl
  rw [toFields, List.map_append, List.map_map, ofFields, List.foldlM_append]
  change Except.map _
    ((Field.all.map fun field => (field.key, (r.fieldValue field).canonical)).foldlM Draft.add {} >>=
      _) = _
  rw [Draft.foldlM_add_wellKnown]
  change Except.map _ ((r.extra.entries.map (Prod.map id Value.canonical)).foldlM Draft.add
    (Draft.ofWellKnown r.canonical)) = _
  rw [hextra]
  rfl

/-! ## The map of a record -/

/-- In the arguments and in every extra field at most `depth` containers are nested in one
another. -/
def NestsWithin (r : LogRecord) (depth : Nat) : Prop :=
  (∀ v ∈ r.args, v.nesting ≤ depth) ∧ ∀ entry ∈ r.extra.entries, entry.2.nesting ≤ depth

theorem nesting_fieldValue {r : LogRecord} {field : Field} (h : field ≠ .args) :
    (r.fieldValue field).nesting = 0 := by
  have hoption {α : Type} (f : α → Value) (hf : ∀ a, (f a).nesting = 0) (o : Option α) :
      (o.elim .nil f).nesting = 0 := by
    cases o with
    | none => rfl
    | some a => exact hf a
  cases field with
  | args => exact absurd rfl h
  | name | levelno | levelname | msg => rfl
  | _ => exact hoption _ (fun _ => rfl) _

theorem nesting_args_le_iff {args : Option Value} {depth : Nat} :
    (args.getD .nil).nesting ≤ depth ↔ ∀ v ∈ args, v.nesting ≤ depth := by
  cases args with
  | none => exact ⟨fun _ _ h => (nomatch h), fun _ => Nat.zero_le depth⟩
  | some v => exact ⟨fun h w hw => Option.some.inj hw ▸ h, fun h => h v rfl⟩

theorem nesting_toValue_le_succ_iff {r : LogRecord} {depth : Nat} :
    r.toValue.nesting ≤ depth + 1 ↔ r.NestsWithin depth := by
  rw [toValue, Value.nesting_map_le_succ_iff, List.forall_mem_map, toFields,
    List.forall_mem_append, List.forall_mem_map]
  constructor
  · rintro ⟨hfields, hextra⟩
    exact ⟨nesting_args_le_iff.mp (hfields .args (by decide)).2,
      fun entry hmem => (hextra entry hmem).2⟩
  · rintro ⟨hargs, hextra⟩
    refine ⟨fun field _ => ⟨Nat.zero_le _, ?_⟩,
      fun entry hmem => ⟨Nat.zero_le _, hextra entry hmem⟩⟩
    by_cases hfield : field = .args
    · rw [hfield]
      exact nesting_args_le_iff.mpr hargs
    · rw [nesting_fieldValue hfield]
      exact Nat.zero_le depth

/-- A field that has to be text is not written as a byte string. -/
theorem kind_fieldValue {r : LogRecord} {field : Field} (h : field.isTextual = true) :
    (r.fieldValue field).canonical.kind ≠ .bytes := by
  have htext (s : Option String) : (ofText? s).canonical.kind ≠ .bytes := by
    cases s with
    | none => exact nofun
    | some s => exact nofun
  cases field with
  | name | levelname | msg => exact nofun
  | levelno | args | lineno | created | msecs | thread | process => cases h
  | _ => exact htext _

theorem textualEntry_field {k : String} {v : Value}
    (h : isTextualKey k = true → v.canonical.kind ≠ .bytes) :
    textualEntry (.text k, v.signed) = .ok (.text k, v.canonical) := by
  have hform : v.signed.textual = v.canonical := rfl
  unfold textualEntry
  dsimp only
  rw [hform]
  cases hv : v.canonical with
  | bytes bs =>
      rw [hv] at h
      change (if isTextualKey k then _ else Except.ok (Value.text k, Value.bytes bs)) = _
      exact if_neg fun hkey => h hkey rfl
  | _ => rfl

theorem textualKey_of_mem_toFields {r : LogRecord}
    (hkeys : ∀ entry ∈ r.extra.entries, Field.ofKey? entry.1 = none) :
    ∀ entry ∈ r.toFields, isTextualKey entry.1 = true → entry.2.canonical.kind ≠ .bytes := by
  rw [toFields, List.forall_mem_append, List.forall_mem_map]
  constructor
  · intro field _ htextual
    refine kind_fieldValue ?_
    rwa [isTextualKey, Field.ofKey?_key] at htextual
  · intro entry hmem htextual
    rw [isTextualKey, hkeys entry hmem] at htextual
    cases htextual

theorem signed_toValue (r : LogRecord) :
    r.toValue.signed = .map (r.toFields.map fun entry => (.text entry.1, entry.2.signed)) := by
  rw [toValue, Value.signed, Value.signedEntries_eq_map, List.map_map]
  rfl

/-- A reader builds a record from the fields in canonical form, if none of them that has to be text
is a byte string. -/
theorem ofValue_toValue_of_textual {r : LogRecord}
    (h : ∀ entry ∈ r.toFields, isTextualKey entry.1 = true → entry.2.canonical.kind ≠ .bytes) :
    Envelope.ofValue r.toValue.signed =
      (ofFields (r.toFields.map (Prod.map id Value.canonical))).map .record := by
  have htextual : textualRecord (r.toFields.map fun entry => (.text entry.1, entry.2.signed)) =
      .ok (r.toFields.map fun entry => (.text entry.1, entry.2.canonical)) := by
    rw [textualRecord, List.mapM_map]
    exact mapM_eq_ok_map fun entry hmem => textualEntry_field (h entry hmem)
  have hnamed :
      (r.toFields.map fun entry => (Value.text entry.1, entry.2.canonical)).mapM namedEntry =
        .ok (r.toFields.map (Prod.map id Value.canonical)) := by
    rw [List.mapM_map]
    exact mapM_eq_ok_map fun _ _ => rfl
  rw [signed_toValue, Envelope.ofValue, htextual]
  change ((r.toFields.map fun entry => (Value.text entry.1, entry.2.canonical)).mapM namedEntry >>=
    _) = _
  rw [hnamed]
  change (ofFields (r.toFields.map (Prod.map id Value.canonical)) >>= _) = _
  cases ofFields (r.toFields.map (Prod.map id Value.canonical)) <;> rfl

theorem ofValue_toValue {r : LogRecord}
    (hkeys : ∀ entry ∈ r.extra.entries, Field.ofKey? entry.1 = none) :
    Envelope.ofValue r.toValue.signed = .ok (.record r.canonical) := by
  rw [ofValue_toValue_of_textual (textualKey_of_mem_toFields hkeys), ofFields_toFields hkeys]
  rfl

/-! ## Messages of records -/

/-- A record has more fields than a one-byte header can count, so its message is never one byte. -/
theorem encode_ne_sentinel (r : LogRecord) : r.encode ≠ sentinel := by
  have hmany : ¬(r.toFields.map fun entry => (Value.text entry.1, entry.2)).length < 2 ^ 4 := by
    have hfields : Field.all.length = 19 := rfl
    rw [List.length_map, toFields, List.length_append, List.length_map, hfields]
    omega
  rw [encode, toValue, MessagePack.pack, MessagePack.mapHeader, if_neg hmany]
  intro h
  split at h
  · cases h
  · cases h

/-- What a record comes back as. Its message is never the sentinel. If none of its extra fields is
named like a well-known one and all sizes can be announced, the record comes back in canonical form
as long as no argument or extra field nests more than 1022 containers, and else the limit is
reported. The canonical form is the one record that the record is read as. -/
theorem decode_encode (r : LogRecord) :
    Envelope.decode r.encode ≠ .ok .sentinel ∧
      (∀ found, r.ReadAs found ↔ r.canonical = found) ∧
      ((∀ entry ∈ r.extra.entries, ∀ field : Field, entry.1 ≠ field.key) → r.toValue.Fits →
        (r.NestsWithin 1022 → Envelope.decode r.encode = .ok (.record r.canonical)) ∧
          (¬r.NestsWithin 1022 →
            Envelope.decode r.encode = .error (.undecodable .tooDeep))) := by
  refine ⟨fun h => encode_ne_sentinel r (Envelope.decode_eq_sentinel_iff.mp h),
    fun found => readAs_iff, ?_⟩
  intro hnames hfits
  have hkeys : ∀ entry ∈ r.extra.entries, Field.ofKey? entry.1 = none := by
    intro entry hmem
    cases hfound : Field.ofKey? entry.1 with
    | none => rfl
    | some field => exact absurd (Field.key_of_ofKey? hfound).symm (hnames entry hmem field)
  constructor
  · intro hnests
    have hread := MessagePack.read_pack hfits (nesting_toValue_le_succ_iff.mpr hnests) []
    rw [List.append_nil] at hread
    exact (Envelope.decode_of_read hread (encode_ne_sentinel r)).trans (ofValue_toValue hkeys)
  · intro hnests
    have hdeep : MessagePack.nestingLimit < r.toValue.nesting :=
      Nat.lt_of_not_le fun h => hnests (nesting_toValue_le_succ_iff.mp h)
    have hread := MessagePack.read_pack_of_too_deep hfits hdeep []
    rw [List.append_nil] at hread
    exact Envelope.undecodable_iff.mpr hread

/-- A record with an unsigned argument comes back with a signed one. -/
theorem decode_encode_unsigned :
    Envelope.decode ((create "app" .info "up %d").withArgs [.uint 7]).encode =
      .ok (.record ((create "app" .info "up %d").withArgs [.int 7])) := by
  have hnests : ((create "app" .info "up %d").withArgs [.uint 7]).NestsWithin 1022 := by
    refine ⟨fun v hv => ?_, List.forall_mem_nil _⟩
    cases hv
    decide
  exact ((decode_encode _).2.2 (List.forall_mem_nil _) (by decide)).1 hnests

end LogRecord

end LogRelay
