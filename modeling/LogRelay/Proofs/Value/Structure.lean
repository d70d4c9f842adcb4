import LogRelay.Value.Textual

/-!
# The structure of values

An induction principle for values whose arrays and maps hold values, the depth to which containers
are nested, the size limit of the wire, the integers of either kind, and the two rewritings that a
value undergoes on its way through the wire: integers that fit become signed, and byte strings that
are UTF-8 become texts.
-/

namespace LogRelay.Value

/-- Structural induction: a property of all parts of a container is inherited by the container. -/
@[elab_as_elim]
theorem structural {motive : Value → Prop} (nil : motive .nil) (bool : ∀ b, motive (.bool b))
    (int : ∀ i, motive (.int i)) (uint : ∀ u, motive (.uint u)) (float : ∀ x, motive (.float x))
    (text : ∀ s, motive (.text s)) (bytes : ∀ bs, motive (.bytes bs))
    (array : ∀ items, (∀ v ∈ items, motive v) → motive (.array items))
    (map : ∀ entries, (∀ entry ∈ entries, motive entry.1 ∧ motive entry.2) →
      motive (.map entries)) (v : Value) : motive v :=
  @Value.rec motive (fun items => ∀ v ∈ items, motive v)
    (fun entries => ∀ entry ∈ entries, motive entry.1 ∧ motive entry.2)
    (fun entry => motive entry.1 ∧ motive entry.2)
    nil bool int uint float text bytes array map
    (by simp) (fun _ _ head tail => List.forall_mem_cons.mpr ⟨head, tail⟩)
    (by simp) (fun _ _ head tail => List.forall_mem_cons.mpr ⟨head, tail⟩)
    (fun _ _ left right => ⟨left, right⟩) v

/-! ## Nesting -/

mutual

/-- How many containers are nested in one another at the deepest place. -/
def nesting : Value → Nat
  | .array items => nestingItems items + 1
  | .map entries => nestingEntries entries + 1
  | _ => 0

/-- The deepest nesting among values. -/
def nestingItems : List Value → Nat
  | [] => 0
  | v :: rest => max (nesting v) (nestingItems rest)

/-- The deepest nesting among keys and values. -/
def nestingEntries : List (Value × Value) → Nat
  | [] => 0
  | (k, v) :: rest => max (max (nesting k) (nesting v)) (nestingEntries rest)

end

theorem nestingItems_le_iff {items : List Value} {depth : Nat} :
    nestingItems items ≤ depth ↔ ∀ v ∈ items, v.nesting ≤ depth := by
  induction items with
  | nil => simp [nestingItems]
  | cons v rest ih => rw [nestingItems, Nat.max_le, ih, List.forall_mem_cons]

theorem nestingEntries_le_iff {entries : List (Value × Value)} {depth : Nat} :
    nestingEntries entries ≤ depth ↔
      ∀ entry ∈ entries, entry.1.nesting ≤ depth ∧ entry.2.nesting ≤ depth := by
  induction entries with
  | nil => simp [nestingEntries]
  | cons entry rest ih =>
      rw [nestingEntries, Nat.max_le, Nat.max_le, ih, List.forall_mem_cons]

theorem nesting_array_le_succ_iff {items : List Value} {depth : Nat} :
    (array items).nesting ≤ depth + 1 ↔ ∀ v ∈ items, v.nesting ≤ depth := by
  rw [nesting, Nat.add_le_add_iff_right, nestingItems_le_iff]

theorem nesting_map_le_succ_iff {entries : List (Value × Value)} {depth : Nat} :
    (map entries).nesting ≤ depth + 1 ↔
      ∀ entry ∈ entries, entry.1.nesting ≤ depth ∧ entry.2.nesting ≤ depth := by
  rw [nesting, Nat.add_le_add_iff_right, nestingEntries_le_iff]

/-! ## Sizes -/

mutual

/-- Every text, byte string and container has fewer than `2 ^ 32` bytes or parts, so that the wire
can announce its size. -/
def Fits : Value → Prop
  | .text s => (Text.utf8 s).length < 2 ^ 32
  | .bytes bs => bs.length < 2 ^ 32
  | .array items => items.length < 2 ^ 32 ∧ FitsItems items
  | .map entries => entries.length < 2 ^ 32 ∧ FitsEntries entries
  | _ => True

/-- Every item fits. -/
def FitsItems : List Value → Prop
  | [] => True
  | v :: rest => Fits v ∧ FitsItems rest

/-- Every key and every value fits. -/
def FitsEntries : List (Value × Value) → Prop
  | [] => True
  | (k, v) :: rest => (Fits k ∧ Fits v) ∧ FitsEntries rest

end

theorem fitsItems_iff {items : List Value} : FitsItems items ↔ ∀ v ∈ items, v.Fits := by
  induction items with
  | nil => simp [FitsItems]
  | cons v rest ih => simp [FitsItems, ih]

theorem fitsEntries_iff {entries : List (Value × Value)} :
    FitsEntries entries ↔ ∀ entry ∈ entries, entry.1.Fits ∧ entry.2.Fits := by
  induction entries with
  | nil => simp [FitsEntries]
  | cons entry rest ih => simp [FitsEntries, ih]

mutual

/-- Whether a value fits can be computed. -/
def decidableFits : (v : Value) → Decidable v.Fits
  | .nil | .bool _ | .int _ | .uint _ | .float _ => .isTrue trivial
  | .text s => inferInstanceAs (Decidable ((Text.utf8 s).length < 2 ^ 32))
  | .bytes bs => inferInstanceAs (Decidable (bs.length < 2 ^ 32))
  | .array items =>
    have := decidableFitsItems items
    inferInstanceAs (Decidable (items.length < 2 ^ 32 ∧ FitsItems items))
  | .map entries =>
    have := decidableFitsEntries entries
    inferInstanceAs (Decidable (entries.length < 2 ^ 32 ∧ FitsEntries entries))

/-- Whether every item fits can be computed. -/
def decidableFitsItems : (items : List Value) → Decidable (FitsItems items)
  | [] => .isTrue trivial
  | v :: rest =>
    have := decidableFits v
    have := decidableFitsItems rest
    inferInstanceAs (Decidable (Fits v ∧ FitsItems rest))

/-- Whether every key and every value fits can be computed. -/
def decidableFitsEntries : (entries : List (Value × Value)) → Decidable (FitsEntries entries)
  | [] => .isTrue trivial
  | (k, v) :: rest =>
    have := decidableFits k
    have := decidableFits v
    have := decidableFitsEntries rest
    inferInstanceAs (Decidable ((Fits k ∧ Fits v) ∧ FitsEntries rest))

end

instance (v : Value) : Decidable v.Fits :=
  decidableFits v

/-! ## Integers -/

/-- The value is the integer, signed or not. -/
inductive Counts : Value → Int → Prop
  | int {i : Int64} : Counts (.int i) i.toInt
  | uint {u : UInt64} : Counts (.uint u) u.toNat

theorem counts_iff {v : Value} {n : Int} :
    v.Counts n ↔ (∃ i, v = .int i ∧ i.toInt = n) ∨ ∃ u, v = .uint u ∧ (u.toNat : Int) = n := by
  constructor
  · intro h
    cases h with
    | int => exact .inl ⟨_, rfl, rfl⟩
    | uint => exact .inr ⟨_, rfl, rfl⟩
  · rintro (⟨i, rfl, rfl⟩ | ⟨u, rfl, rfl⟩)
    · exact .int
    · exact .uint

/-! ## Signed integers -/

mutual

/-- The value in which every integer that fits is signed. -/
def signed : Value → Value
  | .uint u => if u.toNat < 2 ^ 63 then .int (Int64.ofNat u.toNat) else .uint u
  | .array items => .array (signedItems items)
  | .map entries => .map (signedEntries entries)
  | v => v

/-- Each item in signed form. -/
def signedItems : List Value → List Value
  | [] => []
  | v :: rest => signed v :: signedItems rest

/-- Each key and each value in signed form. -/
def signedEntries : List (Value × Value) → List (Value × Value)
  | [] => []
  | (k, v) :: rest => (signed k, signed v) :: signedEntries rest

end

theorem signedItems_eq_map (items : List Value) : signedItems items = items.map signed := by
  induction items with
  | nil => rfl
  | cons v rest ih => rw [signedItems, ih, List.map_cons]

theorem signedEntries_eq_map (entries : List (Value × Value)) :
    signedEntries entries = entries.map (Prod.map signed signed) := by
  induction entries with
  | nil => rfl
  | cons entry rest ih => rw [signedEntries, ih, List.map_cons, Prod.map]

theorem nestingItems_map {f : Value → Value} {items : List Value}
    (h : ∀ v ∈ items, (f v).nesting = v.nesting) :
    nestingItems (items.map f) = nestingItems items := by
  induction items with
  | nil => rfl
  | cons v rest ih =>
      obtain ⟨hhead, htail⟩ := List.forall_mem_cons.mp h
      rw [List.map_cons, nestingItems, nestingItems, hhead, ih htail]

theorem nestingEntries_map {f : Value → Value} {entries : List (Value × Value)}
    (h : ∀ entry ∈ entries, (f entry.1).nesting = entry.1.nesting ∧
      (f entry.2).nesting = entry.2.nesting) :
    nestingEntries (entries.map (Prod.map f f)) = nestingEntries entries := by
  induction entries with
  | nil => rfl
  | cons entry rest ih =>
      obtain ⟨⟨hkey, hvalue⟩, htail⟩ := List.forall_mem_cons.mp h
      rw [List.map_cons, Prod.map, nestingEntries, nestingEntries, hkey, hvalue, ih htail]

theorem nesting_signed (v : Value) : v.signed.nesting = v.nesting := by
  induction v using structural with
  | uint u =>
      rw [signed]
      split
      · rfl
      · rfl
  | array items ih => rw [signed, signedItems_eq_map, nesting, nesting, nestingItems_map ih]
  | map entries ih => rw [signed, signedEntries_eq_map, nesting, nesting, nestingEntries_map ih]
  | _ => rfl

/-! ## Texts -/

theorem textualItems_eq_map (items : List Value) : textualItems items = items.map textual := by
  induction items with
  | nil => rfl
  | cons v rest ih => rw [textualItems, ih, List.map_cons]

theorem textualEntries_eq_map (entries : List (Value × Value)) :
    textualEntries entries = entries.map (Prod.map textual textual) := by
  induction entries with
  | nil => rfl
  | cons entry rest ih => rw [textualEntries, ih, List.map_cons, Prod.map]

theorem ofBytes_cases (bs : List UInt8) :
    (∃ s, ofBytes bs = .text s) ∨ ofBytes bs = .bytes bs ∧ Text.ofUtf8? bs = none := by
  cases h : Text.ofUtf8? bs with
  | some s => exact .inl ⟨s, by simp [ofBytes, h]⟩
  | none => exact .inr ⟨by simp [ofBytes, h], rfl⟩

theorem textual_eq_nil_iff {v : Value} : v.textual = .nil ↔ v = .nil := by
  cases v with
  | bytes bs => rcases ofBytes_cases bs with ⟨s, hs⟩ | ⟨hs, -⟩ <;> simp [textual, hs]
  | _ => simp [textual]

/-- The value as a reader understands it: integers are signed if they fit, and byte strings are
texts if they are UTF-8. -/
def canonical (v : Value) : Value :=
  v.signed.textual

theorem canonical_eq_nil_iff {v : Value} : v.canonical = .nil ↔ v = .nil := by
  rw [canonical, textual_eq_nil_iff]
  cases v with
  | uint u =>
      rw [signed]
      split <;> simp
  | _ => simp [signed]

end LogRelay.Value
