import LogRelay.Proofs.MessagePack.Acceptance
import LogRelay.Proofs.MessagePack.Locality

/-!
# What reading costs

A reader counts on the way how many reads of values it begins. The count never exceeds the bytes at
hand by more than one, and a value that was read is no larger than its encoding: every value in it
has a first byte of its own, and the contents of its strings stand behind these. An announced count
takes no part in this, because no value is begun before the one in front of it was there.
-/

namespace LogRelay

namespace Value

/-! ## Sizes of values -/

mutual

/-- The sum of a number over a value and all values inside it. -/
def total (own : Value → Nat) : Value → Nat
  | .array items => totalItems own items + own (.array items)
  | .map entries => totalEntries own entries + own (.map entries)
  | v => own v

/-- The sum over all items. -/
def totalItems (own : Value → Nat) : List Value → Nat
  | [] => 0
  | v :: rest => total own v + totalItems own rest

/-- The sum over all keys and values. -/
def totalEntries (own : Value → Nat) : List (Value × Value) → Nat
  | [] => 0
  | (k, v) :: rest => total own k + total own v + totalEntries own rest

end

/-- How many bytes a value holds itself, as a text or as a byte string. -/
def ownContents : Value → Nat
  | .text s => (Text.utf8 s).length
  | .bytes bs => bs.length
  | _ => 0

/-- How many values there are in a value: itself, and every item, key and value inside it. -/
def nodes (v : Value) : Nat :=
  v.total fun _ => 1

/-- How many bytes all the texts and byte strings in a value hold. -/
def contents (v : Value) : Nat :=
  v.total ownContents

theorem total_of_flat {v : Value} (own : Value → Nat) (flat : v.nesting = 0) :
    v.total own = own v := by
  cases v with
  | array items => cases flat
  | map entries => cases flat
  | _ => rfl

theorem totalItems_eq (own : Value → Nat) (items : List Value) :
    totalItems own items = (items.map (total own)).sum := by
  induction items with
  | nil => rfl
  | cons v rest ih => rw [totalItems, ih, List.map_cons, List.sum_cons]

theorem totalEntries_eq (own : Value → Nat) (entries : List (Value × Value)) :
    totalEntries own entries =
      (entries.map fun entry => total own entry.1 + total own entry.2).sum := by
  induction entries with
  | nil => rfl
  | cons entry rest ih => rw [totalEntries, ih, List.map_cons, List.sum_cons]

theorem nodes_array (items : List Value) : (array items).nodes = (items.map nodes).sum + 1 :=
  congrArg (· + 1) (totalItems_eq _ items)

theorem nodes_map (entries : List (Value × Value)) :
    (map entries).nodes = (entries.map fun entry => entry.1.nodes + entry.2.nodes).sum + 1 :=
  congrArg (· + 1) (totalEntries_eq _ entries)

theorem contents_array (items : List Value) : (array items).contents = (items.map contents).sum :=
  totalItems_eq _ items

theorem contents_map (entries : List (Value × Value)) :
    (map entries).contents = (entries.map fun entry => entry.1.contents + entry.2.contents).sum :=
  totalEntries_eq _ entries

end Value

namespace MessagePack

/-! ## Readers that count -/

/-- What reading came to, and how many reads of values were begun on the way. -/
structure Effort (α : Type) where
  begun : Nat
  outcome : Except ReadError (α × List UInt8)

/-- A reader that counts the reads of values that it begins. -/
abbrev Meter (α : Type) := List UInt8 → Effort α

namespace Meter

variable {α β : Type}

/-- Takes nothing. -/
def pure (a : α) : Meter α := fun bs => ⟨0, .ok (a, bs)⟩

/-- Fails before anything is begun. -/
def fail (e : ReadError) : Meter α := fun _ => ⟨0, .error e⟩

/-- Reads two things one after another. -/
def both (first : Meter α) (second : Meter β) : Meter (α × β) := fun bs =>
  match first bs with
  | ⟨begun, .ok (a, rest)⟩ =>
    ⟨begun + (second rest).begun, (second rest).outcome.map fun (b, rest) => ((a, b), rest)⟩
  | ⟨begun, .error e⟩ => ⟨begun, .error e⟩

/-- Reads something and makes something else of it. -/
def map (f : α → β) (one : Meter α) : Meter β := fun bs =>
  ⟨(one bs).begun, (one bs).outcome.map fun (a, rest) => (f a, rest)⟩

/-- Reads that many things one after another. -/
def many (one : Meter α) : Nat → Meter (List α)
  | 0 => pure []
  | count + 1 => (one.both (many one count)).map fun (a, as) => a :: as

/-- Reads the parts of the container that a head announces. -/
def inside (inner : Option (Meter Value)) : Head → Meter Value
  | .leaf v => pure v
  | .array count =>
    match inner with
    | some one => (one.many count).map Value.array
    | none => fail .tooDeep
  | .map count =>
    match inner with
    | some one => ((one.both one).many count).map Value.map
    | none => fail .tooDeep
  | .extension => fail (if inner.isSome then .extension else .tooDeep)

/-- Reads one value, which is a read begun whatever becomes of it. -/
def value (inner : Option (Meter Value)) : Meter Value := fun bs =>
  match readHead bs with
  | .ok (head, rest) => ⟨(inside inner head rest).begun + 1, (inside inner head rest).outcome⟩
  | .error e => ⟨1, .error e⟩

/-- Reads one value in which at most `depth` containers are nested in one another. -/
def nested : Nat → Meter Value
  | 0 => value none
  | depth + 1 => value (some (nested depth))

/-- Reads one value. -/
def read : Meter Value :=
  nested nestingLimit

/-! ## Counting changes no outcome -/

/-- The outcomes are those of a reader that does not count. -/
def Measures (m : Meter α) (one : Reader α) : Prop :=
  ∀ bs, (m bs).outcome = one bs

variable {m : Meter α} {m' : Meter β} {one : Reader α}

theorem Measures.both (h : m.Measures one) : (m.both m).Measures (readPair one) := by
  intro bs
  rw [readPair, ← h bs, Meter.both]
  cases m bs with
  | mk begun outcome =>
      cases outcome with
      | error e => rfl
      | ok found =>
          change _ = (one found.2 >>= _)
          rw [← h found.2]
          dsimp only
          cases (m found.2).outcome with
          | error e => rfl
          | ok found' => rfl

theorem Measures.many (h : m.Measures one) (count : Nat) (done : List α) (bs : List UInt8) :
    readMany one count done bs =
      (m.many count bs).outcome.map fun (as, rest) => (done.reverse ++ as, rest) := by
  induction count generalizing done bs with
  | zero => exact congrArg (fun as => Except.ok (as, bs)) (List.append_nil _).symm
  | succ count ih =>
      rw [readMany, ← h bs, Meter.many, Meter.map, Meter.both]
      cases m bs with
      | mk begun outcome =>
          cases outcome with
          | error e => rfl
          | ok found =>
              change readMany one count (found.1 :: done) found.2 = _
              rw [ih]
              dsimp only
              cases (m.many count found.2).outcome with
              | error e => rfl
              | ok found' =>
                  rw [List.reverse_cons]
                  exact congrArg (fun as => Except.ok (as, found'.2)) (List.append_assoc ..)

theorem Measures.inside {inner : Option (Meter Value)} {reader : Option (Reader Value)}
    (h : Option.Rel Measures inner reader) (head : Head) :
    Measures (Meter.inside inner head) (readInside reader head) := by
  intro bs
  cases h with
  | none => cases head <;> rfl
  | @some m one h =>
      cases head with
      | leaf v => rfl
      | extension => rfl
      | array count =>
          change _ = (readMany one count [] bs >>= _)
          rw [h.many, Meter.inside, Meter.map]
          cases (m.many count bs).outcome with
          | error e => rfl
          | ok found => rfl
      | map count =>
          change _ = (readMany (readPair one) count [] bs >>= _)
          rw [h.both.many, Meter.inside, Meter.map]
          cases ((m.both m).many count bs).outcome with
          | error e => rfl
          | ok found => rfl

theorem Measures.value {inner : Option (Meter Value)} {reader : Option (Reader Value)}
    (h : Option.Rel Measures inner reader) : Measures (Meter.value inner) (readWith reader) := by
  intro bs
  rw [readWith_eq, Meter.value]
  change _ = (readHead bs >>= _)
  cases readHead bs with
  | error e => rfl
  | ok found => exact Measures.inside h found.1 found.2

theorem measures_nested (depth : Nat) : Measures (nested depth) (readNested depth) := by
  induction depth with
  | zero => exact Measures.value .none
  | succ depth ih => exact Measures.value (.some ih)

end Meter

/-! ## What is begun is paid for -/

section

variable {α β : Type} {nodes contents : α → Nat} {nodes' contents' : β → Nat} {budget : Nat}

/-- A reading of that many bytes began as many reads as there are nodes in what was read, and the
bytes that were taken pay for the nodes and the contents. A reading that fails began at most one
read more than there were bytes. -/
inductive Effort.Within (nodes contents : α → Nat) (budget : Nat) : Effort α → Prop
  | ok {begun : Nat} {a : α} {rest : List UInt8} (begun_eq : begun = nodes a)
      (room : nodes a + contents a + rest.length ≤ budget) :
      Within nodes contents budget ⟨begun, .ok (a, rest)⟩
  | error {begun : Nat} {e : ReadError} (bound : begun ≤ budget + 1) :
      Within nodes contents budget ⟨begun, .error e⟩

/-- Whatever is read is paid for by the bytes at hand. -/
def Meter.Paid (m : Meter α) (nodes contents : α → Nat) : Prop :=
  ∀ p, (m p).Within nodes contents p.length

variable {m : Meter α} {m' : Meter β}

theorem Meter.Paid.map (h : m.Paid nodes contents) (f : α → β)
    (hnodes : ∀ a, nodes' (f a) = nodes a) (hcontents : ∀ a, contents' (f a) = contents a) :
    (m.map f).Paid nodes' contents' := by
  intro p
  have hone := h p
  rw [Meter.map]
  generalize m p = effort at hone
  cases hone with
  | ok begun_eq room => exact .ok (begun_eq.trans (hnodes _).symm) (by rwa [hnodes, hcontents])
  | error bound => exact .error bound

/-- The second of two things is read only when the first was there, so only one of them can fail. -/
theorem Meter.Paid.both (h : m.Paid nodes contents) (h' : m'.Paid nodes' contents') :
    (m.both m').Paid (fun found => nodes found.1 + nodes' found.2)
      (fun found => contents found.1 + contents' found.2) := by
  intro p
  have hfirst := h p
  rw [Meter.both]
  generalize m p = effort at hfirst
  cases hfirst with
  | error bound => exact .error bound
  | @ok _ _ rest begun_eq room =>
      have hsecond := h' rest
      dsimp only
      generalize m' rest = effort at hsecond
      cases hsecond with
      | error bound => exact .error (by dsimp only; omega)
      | ok begun_eq' room' => exact .ok (by dsimp only; omega) (by dsimp only; omega)

theorem Meter.Paid.many (h : m.Paid nodes contents) (count : Nat) :
    (m.many count).Paid (fun as => (as.map nodes).sum) fun as => (as.map contents).sum := by
  induction count with
  | zero => exact fun p => .ok rfl (Nat.zero_add _).le
  | succ count ih => exact (h.both ih).map _ (fun _ => rfl) fun _ => rfl

/-- The byte in front of the parts of a container pays for the container itself. -/
theorem Effort.Within.around {effort : Effort α} {budget' : Nat}
    (h : effort.Within nodes contents budget) (room : budget < budget') (f : α → Value)
    (hnodes : ∀ a, (f a).nodes = nodes a + 1) (hcontents : ∀ a, (f a).contents = contents a) :
    Effort.Within Value.nodes Value.contents budget'
      ⟨effort.begun + 1, effort.outcome.map fun (a, rest) => (f a, rest)⟩ := by
  cases h with
  | ok begun_eq paid =>
      refine .ok ?_ ?_
      · rw [hnodes, begun_eq]
      · rw [hnodes, hcontents]
        omega
  | error bound => exact .error (by dsimp only; omega)

end

/-! ## Values are paid for -/

/-- Besides its first byte, a value without parts is paid for by the bytes of its contents. -/
theorem ownContents_lt_length {t : Tree} {v : Value} {encoding : List UInt8}
    (written : Written t encoding) (means : Means t v) (flat : v.nesting = 0) :
    v.ownContents < encoding.length := by
  cases means with
  | text | raw =>
      cases written with
      | str announced =>
          have hheader := announced.length_pos
          simp only [Value.ownContents, List.length_append]
          omega
  | bytes =>
      cases written with
      | bin announced =>
          have hheader := announced.length_pos
          simp only [Value.ownContents, List.length_append]
          omega
  | array => cases flat
  | map => cases flat
  | _ => exact written.length_pos

namespace Meter

variable {p rest : List UInt8} {count : Nat}

theorem within_leaf {v : Value} (h : readHead p = .ok (.leaf v, rest)) :
    Effort.Within Value.nodes Value.contents p.length ⟨1, .ok (v, rest)⟩ := by
  obtain ⟨e, rfl, opening⟩ := opening_of_readHead h
  cases opening with
  | leaf written means flat =>
      have hcontents := ownContents_lt_length written means flat
      refine .ok (Value.total_of_flat (fun _ => 1) flat).symm ?_
      rw [Value.nodes, Value.contents, Value.total_of_flat _ flat, Value.total_of_flat _ flat,
        List.length_append]
      omega

theorem length_lt_of_readHead_array (h : readHead p = .ok (.array count, rest)) :
    rest.length < p.length := by
  obtain ⟨e, rfl, opening⟩ := opening_of_readHead h
  cases opening with
  | array announced =>
      rw [List.length_append]
      exact Nat.lt_add_of_pos_left announced.length_pos

theorem length_lt_of_readHead_map (h : readHead p = .ok (.map count, rest)) :
    rest.length < p.length := by
  obtain ⟨e, rfl, opening⟩ := opening_of_readHead h
  cases opening with
  | map announced =>
      rw [List.length_append]
      exact Nat.lt_add_of_pos_left announced.length_pos

theorem Paid.value {inner : Option (Meter Value)}
    (h : ∀ one ∈ inner, one.Paid Value.nodes Value.contents) :
    (Meter.value inner).Paid Value.nodes Value.contents := by
  intro p
  rw [Meter.value]
  cases hhead : readHead p with
  | error e => exact .error (Nat.le_add_left 1 _)
  | ok found =>
      obtain ⟨head, rest⟩ := found
      cases head with
      | leaf v => exact within_leaf hhead
      | extension => exact .error (Nat.le_add_left 1 _)
      | array count =>
          cases inner with
          | none => exact .error (Nat.le_add_left 1 _)
          | some one =>
              exact ((h one rfl).many count rest).around (length_lt_of_readHead_array hhead)
                Value.array Value.nodes_array Value.contents_array
      | map count =>
          cases inner with
          | none => exact .error (Nat.le_add_left 1 _)
          | some one =>
              have hone := h one rfl
              exact ((hone.both hone).many count rest).around (length_lt_of_readHead_map hhead)
                Value.map Value.nodes_map Value.contents_map

theorem paid_nested (depth : Nat) : (nested depth).Paid Value.nodes Value.contents := by
  induction depth with
  | zero => exact Paid.value nofun
  | succ depth ih =>
      refine Paid.value fun one hone => ?_
      cases hone
      exact ih

end Meter

/-- A reader that counts the reads of values that it begins comes to the same outcome. A value that
was read has no more nodes and contents than there are bytes in its encoding, and as many reads were
begun as it has nodes. A reading that fails began at most one read more than there were bytes,
whatever was announced. -/
theorem read_within_bytes (p : List UInt8) :
    (Meter.read p).outcome = read p ∧
      (∀ v rest, read p = .ok (v, rest) →
        (Meter.read p).begun = v.nodes ∧
          ∃ e, p = e ++ rest ∧ v.nodes + v.contents ≤ e.length) ∧
      ∀ cause, read p = .error cause → (Meter.read p).begun ≤ p.length + 1 := by
  have houtcome : (Meter.read p).outcome = read p := Meter.measures_nested nestingLimit p
  have hpaid : (Meter.read p).Within Value.nodes Value.contents p.length :=
    Meter.paid_nested nestingLimit p
  refine ⟨houtcome, fun v rest hread => ?_, fun cause hread => ?_⟩
  · rw [hread] at houtcome
    obtain ⟨e, rfl, -⟩ := read_eq_ok_iff.mp hread
    generalize Meter.read (e ++ rest) = effort at houtcome hpaid ⊢
    cases hpaid with
    | error => cases houtcome
    | ok begun_eq room =>
        cases houtcome
        rw [List.length_append] at room
        exact ⟨begun_eq, e, rfl, by omega⟩
  · rw [hread] at houtcome
    generalize Meter.read p = effort at houtcome hpaid ⊢
    cases hpaid with
    | ok => cases houtcome
    | error bound => exact bound

/-- An array announces as many items as a header can announce, but there is only one and the start
of another. A shorter one is read, with a byte left over. -/
theorem read_within_bytes_announced :
    read [0xdd, 0xff, 0xff, 0xff, 0xff, 0xc0, 0xa1] = .error .cutContents ∧
      (Meter.read [0xdd, 0xff, 0xff, 0xff, 0xff, 0xc0, 0xa1]).begun ≤ 8 ∧
      read [0x92, 0xc4, 0x01, 0xff, 0xc0, 0x07] = .ok (.array [.bytes [0xff], .nil], [0x07]) ∧
      (Meter.read [0x92, 0xc4, 0x01, 0xff, 0xc0, 0x07]).begun =
        (Value.array [.bytes [0xff], .nil]).nodes ∧
      ∃ e : List UInt8, [0x92, 0xc4, 0x01, 0xff, 0xc0, 0x07] = e ++ [0x07] ∧
        (Value.array [.bytes [0xff], .nil]).nodes +
          (Value.array [.bytes [0xff], .nil]).contents ≤ e.length := by
  have hcut : read [0xdd, 0xff, 0xff, 0xff, 0xff, 0xc0, 0xa1] = .error .cutContents :=
    (read_within_bytes _).1.symm.trans rfl
  have hread : read [0x92, 0xc4, 0x01, 0xff, 0xc0, 0x07] =
      .ok (.array [.bytes [0xff], .nil], [0x07]) :=
    (read_within_bytes _).1.symm.trans rfl
  exact ⟨hcut, (read_within_bytes _).2.2 _ hcut, hread, (read_within_bytes _).2.1 _ _ hread⟩

end MessagePack

end LogRelay
