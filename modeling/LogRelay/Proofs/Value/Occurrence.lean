import LogRelay.Proofs.Value.Structure

/-!
# What stands inside a value

A value occurs in itself, and what occurs in an item of an array, in a key or in a value of a map
occurs in the container. Sizes, depth and canonical form are told by what occurs: a value is its own
canonical form when no byte string in it spells a text and no unsigned integer in it fits a signed
one.
-/

namespace LogRelay.Value

/-- The first value stands in the second, at any depth and possibly in a key. -/
inductive Occurs (w : Value) : Value → Prop
  | self : Occurs w w
  | item {items : List Value} {v : Value} (member : v ∈ items) (inside : Occurs w v) :
      Occurs w (.array items)
  | key {entries : List (Value × Value)} {entry : Value × Value} (member : entry ∈ entries)
      (inside : Occurs w entry.1) : Occurs w (.map entries)
  | value {entries : List (Value × Value)} {entry : Value × Value} (member : entry ∈ entries)
      (inside : Occurs w entry.2) : Occurs w (.map entries)

variable {v w : Value}

theorem Occurs.nesting_le (h : Occurs w v) : w.nesting ≤ v.nesting := by
  induction h with
  | self => exact Nat.le_refl _
  | item member _ ih =>
      exact Nat.le_trans ih (Nat.le_succ_of_le (nestingItems_le_iff.mp (Nat.le_refl _) _ member))
  | key member _ ih =>
      exact Nat.le_trans ih (Nat.le_succ_of_le (nestingEntries_le_iff.mp (Nat.le_refl _) _ member).1)
  | value member _ ih =>
      exact Nat.le_trans ih (Nat.le_succ_of_le (nestingEntries_le_iff.mp (Nat.le_refl _) _ member).2)

/-! ## Sizes -/

/-- Every text and every byte string in the value has fewer than `2 ^ 32` bytes. -/
structure ShortStrings (v : Value) : Prop where
  text : ∀ s, Occurs (.text s) v → (Text.utf8 s).length < 2 ^ 32
  bytes : ∀ bs, Occurs (.bytes bs) v → bs.length < 2 ^ 32

/-- Every array and every map in the value has fewer than `2 ^ 32` parts. -/
structure SmallContainers (v : Value) : Prop where
  array : ∀ items, Occurs (.array items) v → items.length < 2 ^ 32
  map : ∀ entries, Occurs (.map entries) v → entries.length < 2 ^ 32

theorem ShortStrings.of_occurs (h : v.ShortStrings) (inside : ∀ u, Occurs u w → Occurs u v) :
    w.ShortStrings :=
  ⟨fun s hs => h.text s (inside _ hs), fun bs hbs => h.bytes bs (inside _ hbs)⟩

theorem SmallContainers.of_occurs (h : v.SmallContainers) (inside : ∀ u, Occurs u w → Occurs u v) :
    w.SmallContainers :=
  ⟨fun items hi => h.array items (inside _ hi), fun entries he => h.map entries (inside _ he)⟩

theorem smallContainers_of_flat (flat : v.nesting = 0) : v.SmallContainers := by
  constructor
  · intro items h
    have hle := h.nesting_le
    simp [nesting, flat] at hle
  · intro entries h
    have hle := h.nesting_le
    simp [nesting, flat] at hle

theorem Fits.of_occurs (h : v.Fits) (inside : Occurs w v) : w.Fits := by
  induction inside with
  | self => exact h
  | item member _ ih => exact ih (fitsItems_iff.mp h.2 _ member)
  | key member _ ih => exact ih (fitsEntries_iff.mp h.2 _ member).1
  | value member _ ih => exact ih (fitsEntries_iff.mp h.2 _ member).2

theorem Fits.shortStrings (h : v.Fits) : v.ShortStrings :=
  ⟨fun _ hs => h.of_occurs hs, fun _ hbs => h.of_occurs hbs⟩

theorem fits_of_small (short : v.ShortStrings) (small : v.SmallContainers) : v.Fits := by
  induction v using structural with
  | text s => exact short.text s .self
  | bytes bs => exact short.bytes bs .self
  | array items ih =>
      refine ⟨small.array items .self, fitsItems_iff.mpr fun v hv => ?_⟩
      exact ih v hv (short.of_occurs fun _ => .item hv) (small.of_occurs fun _ => .item hv)
  | map entries ih =>
      refine ⟨small.map entries .self, fitsEntries_iff.mpr fun entry hentry => ⟨?_, ?_⟩⟩
      · exact (ih entry hentry).1 (short.of_occurs fun _ => .key hentry)
          (small.of_occurs fun _ => .key hentry)
      · exact (ih entry hentry).2 (short.of_occurs fun _ => .value hentry)
          (small.of_occurs fun _ => .value hentry)
  | _ => trivial

/-! ## Canonical form -/

/-- No byte string in the value spells a text and no unsigned integer in it fits a signed one. -/
structure IsCanonical (v : Value) : Prop where
  bytes : ∀ bs, Occurs (.bytes bs) v → Text.ofUtf8? bs = none
  uint : ∀ u, Occurs (.uint u) v → 2 ^ 63 ≤ u.toNat

theorem IsCanonical.of_occurs (h : v.IsCanonical) (inside : ∀ u, Occurs u w → Occurs u v) :
    w.IsCanonical :=
  ⟨fun bs hbs => h.bytes bs (inside _ hbs), fun u hu => h.uint u (inside _ hu)⟩

theorem map_eq_self {α : Type} {f : α → α} {as : List α} (h : ∀ a ∈ as, f a = a) :
    as.map f = as :=
  (List.map_congr_left h).trans (List.map_id _)

theorem IsCanonical.signed_eq (h : v.IsCanonical) : v.signed = v := by
  induction v using structural with
  | uint u => rw [signed, if_neg (Nat.not_lt.mpr (h.uint u .self))]
  | array items ih =>
      rw [signed, signedItems_eq_map]
      exact congrArg array (map_eq_self fun v hv => ih v hv (h.of_occurs fun _ => .item hv))
  | map entries ih =>
      rw [signed, signedEntries_eq_map]
      refine congrArg map (map_eq_self fun entry hentry => Prod.ext ?_ ?_)
      · exact (ih entry hentry).1 (h.of_occurs fun _ => .key hentry)
      · exact (ih entry hentry).2 (h.of_occurs fun _ => .value hentry)
  | _ => rfl

theorem IsCanonical.textual_eq (h : v.IsCanonical) : v.textual = v := by
  induction v using structural with
  | bytes bs => rw [textual, ofBytes, h.bytes bs .self]
  | array items ih =>
      rw [textual, textualItems_eq_map]
      exact congrArg array (map_eq_self fun v hv => ih v hv (h.of_occurs fun _ => .item hv))
  | map entries ih =>
      rw [textual, textualEntries_eq_map]
      refine congrArg map (map_eq_self fun entry hentry => Prod.ext ?_ ?_)
      · exact (ih entry hentry).1 (h.of_occurs fun _ => .key hentry)
      · exact (ih entry hentry).2 (h.of_occurs fun _ => .value hentry)
  | _ => rfl

theorem IsCanonical.canonical_eq (h : v.IsCanonical) : v.canonical = v := by
  rw [canonical, h.signed_eq, h.textual_eq]

/-! ## What occurs in a textual form -/

theorem nesting_textual (v : Value) : v.textual.nesting = v.nesting := by
  induction v using structural with
  | bytes bs =>
      rw [textual, ofBytes]
      split
      · rfl
      · rfl
  | array items ih => rw [textual, textualItems_eq_map, nesting, nesting, nestingItems_map ih]
  | map entries ih => rw [textual, textualEntries_eq_map, nesting, nesting, nestingEntries_map ih]
  | _ => rfl

/-- A part of a textual form is the textual form of a part. -/
theorem exists_of_occurs_textual (h : Occurs w v.textual) : ∃ u, Occurs u v ∧ w = u.textual := by
  induction v using structural with
  | array items ih =>
      rw [textual, textualItems_eq_map] at h
      cases h with
      | self => exact ⟨_, .self, by rw [textual, textualItems_eq_map]⟩
      | item member inside =>
          obtain ⟨v, hv, rfl⟩ := List.mem_map.mp member
          obtain ⟨u, hu, rfl⟩ := ih v hv inside
          exact ⟨u, .item hv hu, rfl⟩
  | map entries ih =>
      rw [textual, textualEntries_eq_map] at h
      cases h with
      | self => exact ⟨_, .self, by rw [textual, textualEntries_eq_map]⟩
      | key member inside =>
          obtain ⟨entry, hentry, rfl⟩ := List.mem_map.mp member
          obtain ⟨u, hu, rfl⟩ := (ih entry hentry).1 inside
          exact ⟨u, .key hentry hu, rfl⟩
      | value member inside =>
          obtain ⟨entry, hentry, rfl⟩ := List.mem_map.mp member
          obtain ⟨u, hu, rfl⟩ := (ih entry hentry).2 inside
          exact ⟨u, .value hentry hu, rfl⟩
  | bytes bs =>
      refine ⟨_, .self, ?_⟩
      rw [textual, ofBytes] at h ⊢
      split at h
      · cases h
        rfl
      · cases h
        rfl
  | _ =>
      cases h
      exact ⟨_, .self, rfl⟩

theorem ofUtf8?_of_textual_eq_bytes {bs : List UInt8} (h : v.textual = .bytes bs) :
    Text.ofUtf8? bs = none := by
  cases v with
  | bytes raw => rcases ofBytes_cases raw with ⟨s, hs⟩ | ⟨hs, hnone⟩ <;> simp_all [textual]
  | _ => simp [textual] at h

theorem eq_of_textual_eq_uint {u : UInt64} (h : v.textual = .uint u) : v = .uint u := by
  cases v with
  | bytes raw => rcases ofBytes_cases raw with ⟨s, hs⟩ | ⟨hs, -⟩ <;> simp_all [textual]
  | _ => simp_all [textual]

theorem exists_of_textual_eq_array {items : List Value} (h : v.textual = .array items) :
    ∃ raw, v = .array raw ∧ raw.length = items.length := by
  cases v with
  | array raw =>
      rw [textual, textualItems_eq_map] at h
      cases h
      exact ⟨raw, rfl, by simp⟩
  | bytes raw => rcases ofBytes_cases raw with ⟨s, hs⟩ | ⟨hs, -⟩ <;> simp_all [textual]
  | _ => simp [textual] at h

theorem exists_of_textual_eq_map {entries : List (Value × Value)} (h : v.textual = .map entries) :
    ∃ raw, v = .map raw ∧ raw.length = entries.length := by
  cases v with
  | map raw =>
      rw [textual, textualEntries_eq_map] at h
      cases h
      exact ⟨raw, rfl, by simp⟩
  | bytes raw => rcases ofBytes_cases raw with ⟨s, hs⟩ | ⟨hs, -⟩ <;> simp_all [textual]
  | _ => simp [textual] at h

/-- In a textual form no byte string spells a text, and there is no other integer in it than in the
value. -/
theorem isCanonical_textual (h : ∀ u, Occurs (.uint u) v → 2 ^ 63 ≤ u.toNat) :
    v.textual.IsCanonical := by
  constructor
  · intro bs hbs
    obtain ⟨part, -, heq⟩ := exists_of_occurs_textual hbs
    exact ofUtf8?_of_textual_eq_bytes heq.symm
  · intro u hu
    obtain ⟨part, hpart, heq⟩ := exists_of_occurs_textual hu
    exact h u (eq_of_textual_eq_uint heq.symm ▸ hpart)

theorem smallContainers_textual (h : v.SmallContainers) : v.textual.SmallContainers := by
  constructor
  · intro items hitems
    obtain ⟨part, hpart, heq⟩ := exists_of_occurs_textual hitems
    obtain ⟨raw, rfl, hlength⟩ := exists_of_textual_eq_array heq.symm
    exact hlength ▸ h.array raw hpart
  · intro entries hentries
    obtain ⟨part, hpart, heq⟩ := exists_of_occurs_textual hentries
    obtain ⟨raw, rfl, hlength⟩ := exists_of_textual_eq_map heq.symm
    exact hlength ▸ h.map raw hpart

end LogRelay.Value
