import LogRelay.Proofs.Envelope.Verdict
import LogRelay.Proofs.Record.Deciding

/-!
# Extra fields and well-known ones

Well-known and extra fields travel in one map, extra ones behind, and the last entry of a name
decides. So an extra field under a name of its own leaves all other fields alone, whatever it holds
and whatever other extra fields there are. An extra field under a well-known name takes the place of
that field, or makes the message malformed.
-/

namespace LogRelay

namespace Extra

theorem lookup_map (f : Value → Value) (entries : List (String × Value)) (key : String) :
    (entries.map (Prod.map id f)).lookup key = (entries.lookup key).map f := by
  induction entries with
  | nil => rfl
  | cons entry rest ih =>
      obtain ⟨k, v⟩ := entry
      rw [List.map_cons, Prod.map_apply, id, lookup_cons, lookup_cons, ih]
      split
      · rfl
      · rfl

theorem get?_map (f : Value → Value) (extra : Extra) (key : String) :
    (extra.map f).get? key = (extra.get? key).map f :=
  lookup_map f extra.entries key

theorem mem_put_self (key : String) (value : Value) (entries : List (String × Value)) :
    (key, value) ∈ put key value entries := by
  induction entries with
  | nil => exact List.mem_singleton_self _
  | cons entry rest ih =>
      unfold put
      split
      · exact List.mem_cons_self
      · split
        · exact List.mem_cons_self
        · exact List.mem_cons_of_mem _ ih

end Extra

namespace LogRecord

variable {r s : LogRecord} {key : String} {v : Value}

/-! ## Reading a record back -/

/-- The named values that a reader finds in the message of a record. -/
def sentFields (r : LogRecord) : List (String × Value) :=
  r.toFields.map (Prod.map id Value.canonical)

/-- What a reader finds under the names of texts is not a byte string. -/
def IsReadable (r : LogRecord) : Prop :=
  ∀ entry ∈ r.toFields, isTextualKey entry.1 = true → entry.2.canonical.kind ≠ .bytes

theorem isReadable_of_ofValue (h : Envelope.ofValue r.toValue.signed = .ok (.record s)) :
    r.IsReadable := by
  rw [signed_toValue] at h
  obtain ⟨found, hfound, -⟩ := bind_eq_ok_iff.mp h
  have hspelled := (exists_mapM_eq_ok_iff Envelope.textualEntry_eq_error_iff).mp ⟨found, hfound⟩
  intro entry hentry htextual hkind
  obtain ⟨field, hkey, hfield⟩ := isTextualKey_iff.mp htextual
  obtain ⟨bs, hbytes⟩ : ∃ bs, entry.2.canonical = .bytes bs := by
    cases hv : entry.2.canonical with
    | bytes bs => exact ⟨bs, rfl⟩
    | _ =>
        rw [hv] at hkind
        cases hkind
  obtain ⟨hsigned, hinvalid⟩ := Value.textual_eq_bytes_iff.mp hbytes
  refine hspelled _ (List.mem_map_of_mem hentry) (.invalidUtf8 field.key) ?_
  rw [hsigned, ← hkey]
  exact .value .text hfield hinvalid

/-- When the message of a record is a record, and which one. -/
theorem decode_encode_eq_ok_iff (hfits : r.toValue.Fits) :
    Envelope.decode r.encode = .ok (.record s) ↔
      r.NestsWithin 1022 ∧ r.IsReadable ∧ ofFields r.sentFields = .ok s := by
  constructor
  · intro h
    obtain ⟨v, hread, hv⟩ := Envelope.exists_of_decode_eq_record h
    have hnests : r.NestsWithin 1022 := by
      by_contra hdeep
      have hlimit : MessagePack.nestingLimit < r.toValue.nesting :=
        Nat.lt_of_not_le fun hle => hdeep (nesting_toValue_le_succ_iff.mp hle)
      have herror := MessagePack.read_pack_of_too_deep hfits hlimit []
      rw [List.append_nil] at herror
      cases herror.symm.trans hread
    have hsent := MessagePack.read_pack hfits (nesting_toValue_le_succ_iff.mpr hnests) []
    rw [List.append_nil] at hsent
    obtain rfl : r.toValue.signed = v := by
      have hsame := hsent.symm.trans hread
      cases hsame
      rfl
    have hreadable := isReadable_of_ofValue hv
    rw [ofValue_toValue_of_textual hreadable] at hv
    obtain ⟨s', hs, hrecord⟩ := map_eq_ok_iff.mp hv
    cases hrecord
    exact ⟨hnests, hreadable, hs⟩
  · rintro ⟨hnests, hreadable, hs⟩
    have hread := MessagePack.read_pack hfits (nesting_toValue_le_succ_iff.mpr hnests) []
    rw [List.append_nil] at hread
    rw [encode, Envelope.decode_of_read hread (encode_ne_sentinel r),
      ofValue_toValue_of_textual hreadable]
    exact map_eq_ok_iff.mpr ⟨s, hs, rfl⟩

/-! ## Deciding values of records that are sent -/

theorem deciding?_append (entries others : List (String × Value)) (key : String) :
    deciding? (entries ++ others) key = (deciding? others key).or (deciding? entries key) := by
  rw [deciding?, List.filter_append, List.getLast?_append, Option.map_or]
  rfl

theorem deciding?_singleton (entry : String × Value) (key : String) :
    deciding? [entry] key = if countsFor key entry then some entry.2 else none :=
  deciding?_append_singleton [] entry key

theorem deciding?_of_nodup {entries : List (String × Value)}
    (hkeys : (entries.map Prod.fst).Nodup) (key : String) :
    deciding? entries key = (entries.lookup key).filter fun v => countsFor key (key, v) := by
  induction entries with
  | nil => rfl
  | cons entry rest ih =>
      obtain ⟨k, v⟩ := entry
      obtain ⟨hfresh, hrest⟩ := List.nodup_cons.mp hkeys
      rw [← List.singleton_append, deciding?_append, ih hrest, deciding?_singleton,
        List.singleton_append, Extra.lookup_cons]
      by_cases h : key = k
      · have hnone : rest.lookup key = none := by
          refine Option.eq_none_iff_forall_ne_some.mpr fun w hw => hfresh ?_
          exact List.mem_map.mpr ⟨_, (Extra.lookup_eq_some_iff_mem hrest).mp hw, h⟩
        rw [hnone, if_pos h, h, Option.filter_some]
        rfl
      · rw [if_neg h, countsFor_eq_false (Ne.symm h)]
        exact Option.or_none

/-- The well-known fields of a record as a reader finds them. -/
def wellKnown (r : LogRecord) : List (String × Value) :=
  Field.all.map fun field => (field.key, (r.fieldValue field).canonical)

/-- What decides a field of a record that is sent: an extra field of that name if it counts, and
else the field itself. -/
theorem deciding?_sentFields (r : LogRecord) (key : String) :
    deciding? r.sentFields key =
      (((r.extra.get? key).map Value.canonical).filter fun v => countsFor key (key, v)).or
        (deciding? r.wellKnown key) := by
  have hsplit : r.sentFields = r.wellKnown ++ (r.extra.map Value.canonical).entries := by
    rw [sentFields, toFields, List.map_append, List.map_map]
    rfl
  rw [hsplit, deciding?_append, deciding?_of_nodup (Extra.nodup_keys _), ← Extra.get?_map]
  rfl

theorem deciding?_wellKnown_name (r : LogRecord) :
    deciding? r.wellKnown Field.name.key = some (.text r.name) := by
  have hkeys : (r.wellKnown.map Prod.fst).Nodup := by
    have hall : (Field.all.map Field.key).Nodup := by decide
    rwa [wellKnown, List.map_map]
  rw [deciding?_of_nodup hkeys]
  rfl

theorem fieldValue_withExtra (field : Field) :
    (r.withExtra key v).fieldValue field = r.fieldValue field := by
  cases field <;> rfl

theorem get?_withExtra (other : String) :
    (r.withExtra key v).extra.get? other = if other = key then some v else r.extra.get? other :=
  Extra.get?_insert r.extra key v other

theorem wellKnown_withExtra : (r.withExtra key v).wellKnown = r.wellKnown := by
  simp only [wellKnown, fieldValue_withExtra]

/-- An extra field decides what stands under its name, and nothing else. -/
theorem deciding?_withExtra :
    deciding? (r.withExtra key v).sentFields =
      Function.update (deciding? r.sentFields) key
        (((some v.canonical).filter fun w => countsFor key (key, w)).or
          (deciding? r.wellKnown key)) := by
  funext other
  rw [deciding?_sentFields, get?_withExtra, wellKnown_withExtra]
  by_cases h : other = key
  · subst h
    rw [if_pos rfl, Option.map_some, Function.update_self]
  · rw [if_neg h, Function.update_of_ne h, deciding?_sentFields]

/-- The fields of a record with one more extra field are that one and fields of the record. -/
theorem mem_toFields_withExtra {entry : String × Value}
    (h : entry ∈ (r.withExtra key v).toFields) : entry = (key, v) ∨ entry ∈ r.toFields := by
  rcases List.mem_append.mp h with hfield | hextra
  · simp only [fieldValue_withExtra] at hfield
    exact .inr (List.mem_append_left _ hfield)
  · exact (Extra.mem_put hextra).imp_right (List.mem_append_right _)

theorem self_mem_toFields_withExtra : (key, v) ∈ (r.withExtra key v).toFields :=
  List.mem_append_right _ (Extra.mem_put_self key v r.extra.entries)

theorem nestsWithin_withExtra {depth : Nat} (h : r.NestsWithin depth) (hv : v.nesting ≤ depth) :
    (r.withExtra key v).NestsWithin depth := by
  refine ⟨h.1, fun entry hentry => ?_⟩
  rcases Extra.mem_put hentry with rfl | hold
  · exact hv
  · exact h.2 entry hold

theorem kind_canonical_eq_nil_iff : v.canonical.kind = .nil ↔ v = .nil := by
  rw [← Value.canonical_eq_nil_iff]
  cases v.canonical <;> simp [Value.kind]

/-- A value counts for its name, unless it is a nil name. -/
theorem countsFor_canonical_iff :
    countsFor key (key, v.canonical) = true ↔ (key = Field.name.key → v ≠ .nil) := by
  rw [countsFor, decide_eq_true rfl, Bool.true_and, Bool.or_eq_true, bne_iff_ne, bne_iff_ne,
    ne_eq v.canonical.kind, kind_canonical_eq_nil_iff, ne_eq, ← imp_iff_not_or]

/-- What an extra field under a well-known name puts there: its value, or the name that the record
itself has, since a nil name does not count. -/
def taken (r : LogRecord) : Field → Value → Value
  | .name, .nil => .text r.name
  | _, v => v.canonical

theorem deciding?_withExtra_of_counts (h : key = Field.name.key → v ≠ .nil) :
    deciding? (r.withExtra key v).sentFields =
      Function.update (deciding? r.sentFields) key (some v.canonical) := by
  have hkept : (some v.canonical).filter (fun w => countsFor key (key, w)) = some v.canonical :=
    Option.filter_some_pos (countsFor_canonical_iff.mpr h)
  rw [deciding?_withExtra, hkept, Option.some_or]

theorem deciding?_withExtra_field (r : LogRecord) (field : Field) (v : Value) :
    deciding? (r.withExtra field.key v).sentFields =
      Function.update (deciding? r.sentFields) field.key (some (r.taken field v)) := by
  by_cases hnil : field = .name ∧ v = .nil
  · obtain ⟨rfl, rfl⟩ := hnil
    rw [deciding?_withExtra, deciding?_wellKnown_name]
    rfl
  · have htaken : r.taken field v = v.canonical := by
      unfold taken
      split
      · exact absurd ⟨rfl, rfl⟩ hnil
      · rfl
    rw [htaken]
    exact deciding?_withExtra_of_counts fun heq hv => hnil ⟨Field.key_injective heq, hv⟩

/-- Which values can stand in a message under a name, whatever else stands there. -/
def Admits (key : String) (v : Value) : Prop :=
  (isTextualKey key = true → v.canonical.kind ≠ .bytes) ∧
    ∀ e, Draft.add {} (key, v.canonical) ≠ .error e

/-- A record that comes back still does with one more extra field that can stand under its name. -/
theorem exists_decode_withExtra_iff (hfits : r.toValue.Fits)
    (hmore : (r.withExtra key v).toValue.Fits) (hv : v.nesting ≤ 1022)
    (h : Envelope.decode r.encode = .ok (.record s)) :
    (∃ t, Envelope.decode (r.withExtra key v).encode = .ok (.record t)) ↔ Admits key v := by
  obtain ⟨hnests, hreadable, hs⟩ := (decode_encode_eq_ok_iff hfits).mp h
  have hfaultless := exists_ofFields_eq_ok_iff.mp ⟨s, hs⟩
  simp only [decode_encode_eq_ok_iff hmore, nestsWithin_withExtra hnests hv, true_and,
    exists_and_left, exists_ofFields_eq_ok_iff]
  constructor
  · rintro ⟨hreads, hfault⟩
    exact ⟨hreads _ self_mem_toFields_withExtra,
      hfault _ (List.mem_map_of_mem self_mem_toFields_withExtra)⟩
  · rintro ⟨htext, hrule⟩
    constructor
    · intro entry hentry
      rcases mem_toFields_withExtra hentry with rfl | hold
      · exact htext
      · exact hreadable entry hold
    · refine List.forall_mem_map.mpr fun entry hentry => ?_
      rcases mem_toFields_withExtra hentry with rfl | hold
      · exact hrule
      · exact hfaultless _ (List.mem_map_of_mem hold)

theorem admits_of_ofKey?_eq_none (h : Field.ofKey? key = none) (v : Value) : Admits key v := by
  refine ⟨fun htextual => ?_, fun e herror => ?_⟩
  · rw [isTextualKey, h] at htextual
    cases htextual
  · rw [Draft.add_extra h] at herror
    cases herror

/-- What one more extra field does to a record that comes back. Under a name of its own it leaves
all well-known fields and all other extra fields as they are. Under a well-known name it takes the
place of that field, if its value can stand there, and otherwise the message is malformed. -/
theorem decode_withExtra (r s : LogRecord) (key : String) (v : Value) (hfits : r.toValue.Fits)
    (hmore : (r.withExtra key v).toValue.Fits) (hv : v.nesting ≤ 1022)
    (h : Envelope.decode r.encode = .ok (.record s)) :
    ((∀ field : Field, key ≠ field.key) →
      ∃ t, Envelope.decode (r.withExtra key v).encode = .ok (.record t) ∧
        { t with extra := s.extra } = s ∧
          ∀ other, t.extra.get? other =
            if other = key then some v.canonical else s.extra.get? other) ∧
    ∀ field : Field, key = field.key →
      ((∃ t, Envelope.decode (r.withExtra key v).encode = .ok (.record t)) ↔ Admits key v) ∧
      ∀ t, Envelope.decode (r.withExtra key v).encode = .ok (.record t) →
        t.extra = s.extra ∧ ∃ value, s = (Draft.ofDeciding value s.extra).finish ∧
          t = (Draft.ofDeciding (Function.update value field (some (r.taken field v)))
            s.extra).finish := by
  have haccepted := exists_decode_withExtra_iff hfits hmore hv h
  obtain ⟨-, -, hs⟩ := (decode_encode_eq_ok_iff hfits).mp h
  obtain ⟨hsfields, hsextra⟩ := eq_of_ofFields_eq_ok hs
  have hdecided {t : LogRecord}
      (ht : Envelope.decode (r.withExtra key v).encode = .ok (.record t)) :=
    eq_of_ofFields_eq_ok ((decode_encode_eq_ok_iff hmore).mp ht).2.2
  constructor
  · intro hnames
    have hkey : Field.ofKey? key = none :=
      Option.eq_none_iff_forall_ne_some.mpr fun field hfield =>
        hnames field (Field.key_of_ofKey? hfield).symm
    have hupdate := deciding?_withExtra_of_counts (r := r) (v := v) fun heq =>
      absurd heq (hnames .name)
    have hvalue : (fun field : Field => deciding? (r.withExtra key v).sentFields field.key) =
        fun field => deciding? r.sentFields field.key := by
      funext field
      rw [hupdate, Function.update_of_ne (hnames field).symm]
    obtain ⟨t, ht⟩ := haccepted.mpr (admits_of_ofKey?_eq_none hkey v)
    obtain ⟨hfields, hextra⟩ := hdecided ht
    rw [hvalue] at hfields
    refine ⟨t, ht, ?_, fun other => ?_⟩
    · calc
        { t with extra := s.extra } =
            { (Draft.ofDeciding (fun field => deciding? r.sentFields field.key) t.extra).finish with
              extra := s.extra } := by rw [← hfields]
        _ = (Draft.ofDeciding (fun field => deciding? r.sentFields field.key) s.extra).finish := rfl
        _ = s := hsfields.symm
    · rw [hextra, hupdate]
      by_cases hother : other = key
      · rw [hother, hkey, Function.update_self, if_pos rfl]
        rfl
      · rw [Function.update_of_ne hother, if_neg hother, hsextra]
  · rintro field rfl
    have hupdate := deciding?_withExtra_field r field v
    have hvalue : (fun other : Field => deciding? (r.withExtra field.key v).sentFields other.key) =
        Function.update (fun other => deciding? r.sentFields other.key) field
          (some (r.taken field v)) := by
      rw [hupdate]
      exact Function.update_comp_eq_of_injective _ (fun _ _ => Field.key_injective) field _
    refine ⟨haccepted, fun t ht => ?_⟩
    obtain ⟨hfields, hextra⟩ := hdecided ht
    have hsame : t.extra = s.extra := by
      refine Extra.ext_get? fun other => ?_
      rw [hextra, hsextra, hupdate]
      cases hother : Field.ofKey? other with
      | some _ => rfl
      | none => rw [Function.update_of_ne (Field.key_ne_of_ofKey?_eq_none hother field).symm]
    rw [hvalue, hsame] at hfields
    exact ⟨hsame, _, hsfields, hfields⟩

/-- An extra field named like the logger's takes its place. -/
theorem withExtra_takes_name :
    ¬ ∀ (r s : LogRecord) (key : String) (v : Value), r.toValue.Fits →
      (r.withExtra key v).toValue.Fits → v.nesting ≤ 1022 →
      Envelope.decode r.encode = .ok (.record s) →
        ∃ t, Envelope.decode (r.withExtra key v).encode = .ok (.record t) ∧
          { t with extra := s.extra } = s ∧
            ∀ other, other ≠ key → t.extra.get? other = s.extra.get? other := by
  intro h
  have hplain : Envelope.decode (create "app" .info "up").encode =
      .ok (.record (create "app" .info "up")) := by rfl
  have htaken : Envelope.decode ((create "app" .info "up").withExtra "name" (.text "db")).encode =
      .ok (.record (create "db" .info "up")) := by rfl
  obtain ⟨t, ht, hsame, -⟩ := h _ _ "name" (.text "db") (by decide) (by decide) (by decide) hplain
  rw [htaken] at ht
  cases ht
  have hname := congrArg LogRecord.name hsame
  simp [create] at hname

/-- An extra field of its own name changes nothing else, also beside one that took the name. -/
theorem decode_withExtra_user :
    let r := (create "app" .info "up").withExtra "name" (.text "db")
    Envelope.decode r.encode = .ok (.record (create "db" .info "up")) ∧
      ∃ t, Envelope.decode (r.withExtra "user" (.array [.uint 7])).encode = .ok (.record t) ∧
        t.name = "db" ∧ t.msg = "up" ∧ t.extra.get? "user" = some (.array [.int 7]) ∧
          t.extra.get? "name" = none := by
  intro r
  have hplain : Envelope.decode ((create "app" .info "up").withExtra "name" (.text "db")).encode =
      .ok (.record (create "db" .info "up")) := by rfl
  obtain ⟨t, ht, hsame, hextra⟩ := (decode_withExtra r _ "user" (.array [.uint 7]) (by decide)
    (by decide) (by decide) hplain).1 (by intro field; cases field <;> decide)
  refine ⟨hplain, t, ht, congrArg LogRecord.name hsame, congrArg LogRecord.msg hsame, ?_, ?_⟩
  · rw [hextra]
    rfl
  · rw [hextra]
    rfl

end LogRecord

end LogRelay
