import LogRelay.Proofs.Record.RoundTrip
import LogRelay.Proofs.Value.Occurrence
import Mathlib.Data.List.Perm.Subperm

/-!
# Decoded records are canonical

A reader gives only values that can be written again: every part of a value that was read has an
encoding of its own, so unsigned integers are large and containers can be announced. A record takes
its arguments and extra fields from the textual forms of such values. Therefore a decoded record is
its own canonical form, and its message is decoded as the same record.
-/

namespace LogRelay.MessagePack

open Value (Occurs)

/-! ## Parts of what is read -/

theorem Sequence.exists_of_mem {α : Type} {Spelled : α → List UInt8 → Prop} {as : List α}
    {body : List UInt8} {a : α} (h : Sequence Spelled as body) (ha : a ∈ as) :
    ∃ e, Spelled a e := by
  induction h with
  | nil => cases ha
  | cons head _ ih =>
      rcases List.mem_cons.mp ha with rfl | ha
      · exact ⟨_, head⟩
      · exact ih ha

/-- Every part of a value that has an encoding has an encoding. -/
theorem Encodes.of_occurs {v w : Value} {encoding : List UInt8} (h : Encodes v encoding)
    (inside : Occurs w v) : ∃ part, Encodes w part := by
  induction inside generalizing encoding with
  | self => exact ⟨encoding, h⟩
  | item member _ ih =>
      obtain ⟨t, hwritten, hmeans⟩ := h
      cases hmeans with
      | array meant =>
          cases hwritten with
          | array _ parts =>
              obtain ⟨item, hitem, hmeans⟩ := exists_mem_of_forall₂ meant member
              obtain ⟨part, hwritten⟩ := parts.exists_of_mem hitem
              exact ih ⟨item, hwritten, hmeans⟩
  | key member _ ih =>
      obtain ⟨t, hwritten, hmeans⟩ := h
      cases hmeans with
      | map meant =>
          cases hwritten with
          | map _ parts =>
              obtain ⟨pair, hpair, ⟨hkey, -⟩⟩ := exists_mem_of_forall₂ meant member
              obtain ⟨part, ⟨hwritten, -⟩⟩ := parts.exists_of_mem hpair
              exact ih ⟨_, hwritten, hkey⟩
  | value member _ ih =>
      obtain ⟨t, hwritten, hmeans⟩ := h
      cases hmeans with
      | map meant =>
          cases hwritten with
          | map _ parts =>
              obtain ⟨pair, hpair, ⟨-, hvalue⟩⟩ := exists_mem_of_forall₂ meant member
              obtain ⟨part, ⟨-, hwritten⟩⟩ := parts.exists_of_mem hpair
              exact ih ⟨_, hwritten, hvalue⟩

theorem two_pow_le_of_encodes_uint {u : UInt64} {encoding : List UInt8}
    (h : Encodes (.uint u) encoding) : 2 ^ 63 ≤ u.toNat := by
  obtain ⟨t, -, hmeans⟩ := h
  cases hmeans with
  | uint large => exact large

theorem Announced.lt_two_pow {heading : Heading} {n : Nat} {header : List UInt8}
    (h : Announced heading n header) (small : ∀ range ∈ heading.small, range.2 ≤ 2 ^ 32)
    (wide : ∀ marker ∈ heading.wide, marker.2 ≤ 4) : n < 2 ^ 32 := by
  cases h with
  | small range _ bound => exact Nat.lt_of_lt_of_le bound (small _ range)
  | @wide marker word marked value =>
      have hwidth : word.length ≤ 4 := wide _ marked
      calc
        n = Wire.ofBigEndian word := value.symm
        _ < 2 ^ (8 * word.length) := Wire.ofBigEndian_lt word
        _ ≤ 2 ^ 32 := Nat.pow_le_pow_right (by decide) (by omega)

theorem smallContainers_of_encodes {v : Value} {encoding : List UInt8} (h : Encodes v encoding) :
    v.SmallContainers := by
  constructor
  · intro items inside
    obtain ⟨part, t, hwritten, hmeans⟩ := h.of_occurs inside
    cases hmeans with
    | array meant =>
        cases hwritten with
        | array announced _ =>
            rw [← meant.length_eq]
            exact announced.lt_two_pow (by simp [Heading.array]) (by simp [Heading.array])
  · intro entries inside
    obtain ⟨part, t, hwritten, hmeans⟩ := h.of_occurs inside
    cases hmeans with
    | map meant =>
        cases hwritten with
        | map announced _ =>
            rw [← meant.length_eq]
            exact announced.lt_two_pow (by simp [Heading.map]) (by simp [Heading.map])

/-! ## How much is read -/

theorem Sequence.mul_length_le {α : Type} {Spelled : α → List UInt8 → Prop} {as : List α}
    {body : List UInt8} (h : Sequence Spelled as body) (width : Nat)
    (hwidth : ∀ a e, Spelled a e → width ≤ e.length) : width * as.length ≤ body.length := by
  induction h with
  | nil => exact Nat.le_refl _
  | cons head _ ih =>
      have hhead := hwidth _ _ head
      rw [List.length_cons, List.length_append, Nat.mul_succ]
      omega

theorem length_entries_of_encodes {entries : List (Value × Value)} {encoding : List UInt8}
    (h : Encodes (.map entries) encoding) : 2 * entries.length < encoding.length := by
  obtain ⟨t, hwritten, hmeans⟩ := h
  cases hmeans with
  | map meant =>
      cases hwritten with
      | map announced parts =>
          have hheader := announced.length_pos
          have hbody := parts.mul_length_le 2 fun pair part hpart => by
            obtain ⟨left, right⟩ := hpart
            have hleft := left.length_pos
            have hright := right.length_pos
            rw [List.length_append]
            omega
          rw [← meant.length_eq, List.length_append]
          omega

end LogRelay.MessagePack

namespace LogRelay

/-! ## Where a record comes from -/

/-- An entry that passes has its value in textual form and a key that passes. -/
theorem textualEntry_eq_ok {entry found : Value × Value} (h : textualEntry entry = .ok found) :
    textualKey entry.1 = .ok found.1 ∧ found.2 = entry.2.textual := by
  obtain ⟨key, hkey, h⟩ := bind_eq_ok_iff.mp h
  dsimp only at h
  split at h
  · split at h
    · cases h
    · cases h
      exact ⟨hkey, rfl⟩
  · cases h
    exact ⟨hkey, rfl⟩

theorem namedEntry_snd {entry : Value × Value} {field : String × Value}
    (h : namedEntry entry = .ok field) : field.2 = entry.2 := by
  unfold namedEntry at h
  split at h
  · cases h
    rfl
  · cases h

namespace Envelope

/-- A value that means a record is a map, and the record is built from named values that are values
of the map in textual form, one for each entry. -/
theorem exists_of_ofValue_eq_record {v : Value} {r : LogRecord} (h : ofValue v = .ok (.record r)) :
    ∃ entries fields, v = .map entries ∧ LogRecord.ofFields fields = .ok r ∧
      fields.length = entries.length ∧
      ∀ field ∈ fields, ∃ entry ∈ entries, field.2 = entry.2.textual := by
  unfold ofValue at h
  split at h
  · next entries =>
    obtain ⟨found, hfound, h⟩ := bind_eq_ok_iff.mp h
    obtain ⟨fields, hfields, h⟩ := bind_eq_ok_iff.mp h
    obtain ⟨r', hr, h⟩ := bind_eq_ok_iff.mp h
    cases h
    have hfound := mapM_eq_ok_iff.mp hfound
    have hfields := mapM_eq_ok_iff.mp hfields
    refine ⟨entries, fields, rfl, hr, hfields.length_eq.symm.trans hfound.length_eq.symm,
      fun field hfield => ?_⟩
    obtain ⟨named, hnamed, hfield⟩ := exists_mem_of_forall₂ hfields hfield
    obtain ⟨entry, hentry, hnamed⟩ := exists_mem_of_forall₂ hfound hnamed
    exact ⟨entry, hentry, (namedEntry_snd hfield).trans (textualEntry_eq_ok hnamed).2⟩
  · cases h

theorem exists_of_decode_eq_record {p : List UInt8} {r : LogRecord}
    (h : decode p = .ok (.record r)) :
    ∃ v, MessagePack.read p = .ok (v, []) ∧ ofValue v = .ok (.record r) := by
  unfold decode at h
  split at h
  · cases h
  · split at h
    · cases h
    · next v rest hread =>
      split at h
      · next hrest => exact ⟨v, by rw [hread, List.isEmpty_iff.mp hrest], h⟩
      · cases h

end Envelope

namespace LogRecord

/-- The arguments and the extra fields of a record stand in a list of named values. Arguments are
not nil, and extra fields are not named like well-known ones. -/
structure DrawnFrom (r : LogRecord) (entries : List (String × Value)) : Prop where
  args : ∀ v ∈ r.args, v ≠ .nil ∧ ∃ entry ∈ entries, entry.2 = v
  extra : ∀ entry ∈ r.extra.entries, entry ∈ entries ∧ Field.ofKey? entry.1 = none

theorem Draft.set_args_extra {d d' : Draft} {field : Field} {v : Value}
    (h : d.set field v = .ok d') :
    (d'.record.args = d.record.args ∨ d'.record.args = ofArgs v) ∧
      d'.record.extra = d.record.extra := by
  cases field with
  | msg =>
      cases h
      exact ⟨.inl rfl, rfl⟩
  | args =>
      cases h
      exact ⟨.inr rfl, rfl⟩
  | _ =>
      obtain ⟨_, -, rfl⟩ := map_eq_ok_iff.mp h
      exact ⟨.inl rfl, rfl⟩

theorem of_mem_ofArgs {v w : Value} (h : w ∈ ofArgs v) : w = v ∧ w ≠ .nil := by
  cases v with
  | nil => cases h
  | _ =>
      cases h
      exact ⟨rfl, nofun⟩

theorem DrawnFrom.add {entries : List (String × Value)} {d d' : Draft} {entry : String × Value}
    (h : d.record.DrawnFrom entries) (member : entry ∈ entries) (hadd : d.add entry = .ok d') :
    d'.record.DrawnFrom entries := by
  cases hfield : Field.ofKey? entry.1 with
  | some field =>
      rw [Draft.add, hfield] at hadd
      obtain ⟨hargs, hextra⟩ := Draft.set_args_extra hadd
      refine ⟨fun v hv => ?_, hextra ▸ h.extra⟩
      rcases hargs with hargs | hargs
      · exact h.args v (hargs ▸ hv)
      · obtain ⟨rfl, hnil⟩ := of_mem_ofArgs (hargs ▸ hv)
        exact ⟨hnil, entry, member, rfl⟩
  | none =>
      rw [Draft.add_extra hfield] at hadd
      cases hadd
      refine ⟨h.args, fun found hfound => ?_⟩
      rcases Extra.mem_put hfound with rfl | hfound
      · exact ⟨member, hfield⟩
      · exact h.extra found hfound

theorem drawnFrom_of_ofFields {entries : List (String × Value)} {r : LogRecord}
    (h : ofFields entries = .ok r) : r.DrawnFrom entries := by
  obtain ⟨d, hrun, rfl⟩ := map_eq_ok_iff.mp h
  have hd : d.record.DrawnFrom entries :=
    foldlM_eq_ok_induction (fun d => d.record.DrawnFrom entries) hrun
      ⟨nofun, List.forall_mem_nil _⟩ fun _ member _ _ hgood hadd => hgood.add member hadd
  exact ⟨hd.args, hd.extra⟩

/-- Every extra field stands in the list once. -/
theorem DrawnFrom.length_extra_le {r : LogRecord} {entries : List (String × Value)}
    (h : r.DrawnFrom entries) : r.extra.entries.length ≤ entries.length := by
  have hsubset : r.extra.entries ⊆ entries := fun entry hentry => (h.extra entry hentry).1
  exact (List.subperm_of_subset r.extra.nodup_entries hsubset).length_le

/-! ## Encoding a record again -/

theorem canonical_eq {r : LogRecord} (hargs : ∀ v ∈ r.args, v ≠ .nil ∧ v.IsCanonical)
    (hextra : ∀ entry ∈ r.extra.entries, entry.2.IsCanonical) : r.canonical = r := by
  have hargs : (r.args.bind fun v => ofArgs v.canonical) = r.args := by
    cases hr : r.args with
    | none => rfl
    | some v =>
        obtain ⟨hnil, hcanonical⟩ := hargs v hr
        rw [Option.bind_some, hcanonical.canonical_eq]
        cases v with
        | nil => exact absurd rfl hnil
        | _ => rfl
  have hextra : r.extra.map Value.canonical = r.extra := by
    refine Extra.ext_entries (Value.map_eq_self fun entry hentry => ?_)
    exact Prod.ext rfl (hextra entry hentry).canonical_eq
  rw [canonical, hargs, hextra]

theorem smallContainers_fieldValue {r : LogRecord} (h : ∀ v ∈ r.args, v.SmallContainers)
    (field : Field) : (r.fieldValue field).SmallContainers := by
  by_cases hfield : field = .args
  · subst hfield
    change (r.args.getD .nil).SmallContainers
    cases hr : r.args with
    | none => exact Value.smallContainers_of_flat rfl
    | some v => exact h v hr
  · exact Value.smallContainers_of_flat (nesting_fieldValue hfield)

theorem fits_toValue {r : LogRecord} (count : r.toFields.length < 2 ^ 32)
    (short : r.toValue.ShortStrings) (hargs : ∀ v ∈ r.args, v.SmallContainers)
    (hextra : ∀ entry ∈ r.extra.entries, entry.2.SmallContainers) : r.toValue.Fits := by
  have hfields : ∀ entry ∈ r.toFields, entry.2.SmallContainers := by
    rw [toFields, List.forall_mem_append, List.forall_mem_map]
    exact ⟨fun field _ => smallContainers_fieldValue hargs field, hextra⟩
  refine ⟨by rwa [List.length_map], Value.fitsEntries_iff.mpr (List.forall_mem_map.mpr ?_)⟩
  intro entry hentry
  have member : (Value.text entry.1, entry.2) ∈
      r.toFields.map fun entry => (Value.text entry.1, entry.2) := List.mem_map_of_mem hentry
  exact ⟨short.text entry.1 (.key member .self),
    Value.fits_of_small (short.of_occurs fun _ => .value member) (hfields entry hentry)⟩

/-- Whatever message a record is decoded from, its arguments and extra fields are canonical at every
depth, arguments that are nil are absent, and no extra field is named like a well-known one. So its
own message is decoded as the same record. That the wire can announce the strings and can count the
fields has to be assumed; the containers in it were counted on the wire before, and a message that
is not huge has no more fields than can be counted. -/
theorem decode_canonical {p : List UInt8} {r : LogRecord}
    (h : Envelope.decode p = .ok (.record r)) :
    (∀ v ∈ r.args, v ≠ .nil ∧ v.IsCanonical) ∧
      (∀ entry ∈ r.extra.entries,
        (∀ field : Field, entry.1 ≠ field.key) ∧ entry.2.IsCanonical) ∧
      (p.length < 2 ^ 32 → r.toFields.length < 2 ^ 32) ∧
      (r.toValue.ShortStrings → r.toFields.length < 2 ^ 32 →
        Envelope.decode r.encode = .ok (.record r)) := by
  obtain ⟨v, hread, hrecord⟩ := Envelope.exists_of_decode_eq_record h
  obtain ⟨encoding, hwhole, hencodes, hdepth⟩ := MessagePack.read_eq_ok_iff.mp hread
  obtain ⟨entries, fields, rfl, hfields, hlength, hsource⟩ :=
    Envelope.exists_of_ofValue_eq_record hrecord
  have hnesting := Value.nesting_map_le_succ_iff.mp hdepth
  have hdrawn := drawnFrom_of_ofFields hfields
  -- the record has nothing but values of these fields, so what holds of all of them is enough
  have hgood : ∀ field ∈ fields,
      field.2.IsCanonical ∧ field.2.SmallContainers ∧ field.2.nesting ≤ 1022 := by
    intro field hfield
    obtain ⟨entry, hentry, heq⟩ := hsource field hfield
    obtain ⟨part, hpart⟩ := hencodes.of_occurs (.value hentry .self)
    rw [heq, Value.nesting_textual]
    refine ⟨Value.isCanonical_textual fun u hu => ?_, Value.smallContainers_textual ?_,
      (hnesting entry hentry).2⟩
    · obtain ⟨_, hinteger⟩ := hpart.of_occurs hu
      exact MessagePack.two_pow_le_of_encodes_uint hinteger
    · exact MessagePack.smallContainers_of_encodes hpart
  have hargs : ∀ v ∈ r.args, v ≠ .nil ∧
      v.IsCanonical ∧ v.SmallContainers ∧ v.nesting ≤ 1022 := by
    intro v hv
    obtain ⟨hnil, field, hfield, rfl⟩ := hdrawn.args v hv
    exact ⟨hnil, hgood field hfield⟩
  have hextra : ∀ entry ∈ r.extra.entries,
      entry.2.IsCanonical ∧ entry.2.SmallContainers ∧ entry.2.nesting ≤ 1022 :=
    fun entry hentry => hgood entry (hdrawn.extra entry hentry).1
  have hkeys : ∀ entry ∈ r.extra.entries, Field.ofKey? entry.1 = none :=
    fun entry hentry => (hdrawn.extra entry hentry).2
  refine ⟨fun v hv => ⟨(hargs v hv).1, (hargs v hv).2.1⟩,
    fun entry hentry => ⟨fun field heq => ?_, (hextra entry hentry).1⟩, fun hsize => ?_,
    fun hshort hcount => ?_⟩
  · have hnone := hkeys entry hentry
    rw [heq, Field.ofKey?_key] at hnone
    cases hnone
  · have hentries := MessagePack.length_entries_of_encodes hencodes
    have hdraws := hdrawn.length_extra_le
    have hknown : Field.all.length = 19 := rfl
    rw [hwhole, List.append_nil] at hsize
    rw [toFields, List.length_append, List.length_map]
    omega
  · have hfits : r.toValue.Fits :=
      fits_toValue hcount hshort (fun v hv => (hargs v hv).2.2.1)
        fun entry hentry => (hextra entry hentry).2.1
    have hnests : r.NestsWithin 1022 :=
      ⟨fun v hv => (hargs v hv).2.2.2, fun entry hentry => (hextra entry hentry).2.2⟩
    have hcanonical : r.canonical = r :=
      canonical_eq (fun v hv => ⟨(hargs v hv).1, (hargs v hv).2.1⟩)
        fun entry hentry => (hextra entry hentry).1
    have hreread := MessagePack.read_pack hfits (nesting_toValue_le_succ_iff.mpr hnests) []
    rw [List.append_nil] at hreread
    calc
      Envelope.decode r.encode = Envelope.ofValue r.toValue.signed :=
        Envelope.decode_of_read hreread (encode_ne_sentinel r)
      _ = .ok (.record r.canonical) := ofValue_toValue hkeys
      _ = .ok (.record r) := by rw [hcanonical]

set_option maxRecDepth 20000 in
/-- A message of an older writer, with byte strings for its texts and a wide header for a small
number. -/
theorem decode_canonical_older_writer :
    let r : LogRecord := { blank with
      name := "x", levelname := "NOTSET"
      args := some (.array [.text "y", .int 7])
      extra := Extra.empty.insert "k" (.bytes [0xff]) }
    Envelope.decode r.encode = .ok (.record r) := by
  intro r
  have hdecode : Envelope.decode
      [0x83, 0xc4, 0x04, 0x6e, 0x61, 0x6d, 0x65, 0xc4, 0x01, 0x78,
        0xa4, 0x61, 0x72, 0x67, 0x73, 0x92, 0xc4, 0x01, 0x79, 0xcd, 0x00, 0x07,
        0xa1, 0x6b, 0xc4, 0x01, 0xff] = .ok (.record r) := by rfl
  have hfits : r.toValue.Fits := by decide
  exact (decode_canonical hdecode).2.2.2 hfits.shortStrings (by decide)

end LogRecord

end LogRelay
