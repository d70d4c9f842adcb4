import LogRelay.Proofs.Envelope.Meaning
import LogRelay.Proofs.MessagePack.Heads

/-!
# What the reader accepts

Reading the written form of a tree gives what `Tree.load` says, whatever follows it, and what was
read was the written form of a tree. Together the two say that the reader accepts exactly the
encodings of values whose containers are nested within the limit. Both are proved by induction on
the depth that is left; the sequences inside a container are treated once for any reader of their
members.
-/

namespace LogRelay.MessagePack

/-! ## Loading trees -/

/-- Loads the two components of a pair, the first one first. -/
def loadPair {α β ε : Type} (one : α → Except ε β) (pair : α × α) : Except ε (β × β) := do
  let first ← one pair.1
  let second ← one pair.2
  .ok (first, second)

namespace Tree

/-- What reading a tree gives, given what the trees inside it give; without that the limit is
reached. -/
def loadWith (inner : Option (Tree → Except ReadError Value)) (t : Tree) : Except ReadError Value :=
  match t.leaf?, inner, t with
  | some v, _, _ => .ok v
  | none, none, _ => .error .tooDeep
  | none, some one, .array items => (items.mapM one).map .array
  | none, some one, .map entries => (entries.mapM (loadPair one)).map .map
  | none, some _, _ => .error .extension

/-- What reading a tree gives if at most `depth` containers may be nested in one another. -/
def load : Nat → Tree → Except ReadError Value
  | 0 => loadWith none
  | depth + 1 => loadWith (some (load depth))

variable {depth : Nat} {t : Tree} {v : Value}

theorem load_of_leaf (h : t.leaf? = some v) : t.load depth = .ok v := by
  cases depth with
  | zero => unfold load loadWith; rw [h]
  | succ depth => unfold load loadWith; rw [h]

theorem load_zero (h : t.leaf? = none) : t.load 0 = .error .tooDeep := by
  unfold load loadWith
  rw [h]

theorem leaf?_of_means (h : Means t v) (flat : v.nesting = 0) : t.leaf? = some v := by
  cases h with
  | nil => rfl
  | bool => rfl
  | @int i =>
      have hi : ofInteger i.toInt = .int i := by
        rw [ofInteger_of_lt i.toInt_lt, Int64.ofInt_toInt]
      exact congrArg some hi
  | @uint u large =>
      have hu : ofInteger u.toNat = .uint u := by
        rw [ofInteger, if_neg (by omega), Int.toNat_natCast, UInt64.ofNat_toNat]
      exact congrArg some hu
  | float32 widens => rw [leaf?, Binary64.widens_iff.mp widens]
  | float64 => rfl
  | @text s =>
      have hs : ofStr (Text.utf8 s) = .text s := by rw [ofStr, Text.ofUtf8?_utf8]
      exact congrArg some hs
  | @raw contents invalid =>
      have hs : ofStr contents = .bytes contents := by rw [ofStr, invalid]
      exact congrArg some hs
  | bytes => rfl
  | array => cases flat
  | map => cases flat

theorem guarded_loadPair {good : Value → Prop} {e : ReadError} {one : Tree → Except ReadError Value}
    {pair : Tree × Tree} {found : Value × Value}
    (h : Componentwise (fun t v => Guarded good e (one t) v) pair found) :
    Guarded (fun found => good found.1 ∧ good found.2) e (loadPair one pair) found := by
  obtain @⟨t, t', v, v', hfirst, hsecond⟩ := h
  constructor
  · rintro ⟨hgood, hgood'⟩
    rw [loadPair, hfirst.ok hgood, hsecond.ok hgood']
    rfl
  · intro hbad
    rw [loadPair]
    by_cases hgood : good v
    · have hgood' : ¬good v' := fun h => hbad ⟨hgood, h⟩
      rw [hfirst.ok hgood, hsecond.error hgood']
      rfl
    · rw [hfirst.error hgood]
      rfl

theorem guarded_load_flat (h : Means t v) (flat : v.nesting = 0) :
    Guarded (fun v => v.nesting ≤ depth) .tooDeep (t.load depth) v :=
  ⟨fun _ => load_of_leaf (leaf?_of_means h flat),
    fun hnesting => absurd (flat ▸ Nat.zero_le depth) hnesting⟩

/-- A tree that stands for a value is loaded as that value, unless containers are nested
too deep. -/
theorem guarded_load (h : Means t v) :
    Guarded (fun v => v.nesting ≤ depth) .tooDeep (t.load depth) v := by
  induction depth generalizing t v with
  | zero =>
      by_cases flat : v.nesting = 0
      · exact guarded_load_flat h flat
      · refine ⟨fun hnesting => absurd (Nat.le_zero.mp hnesting) flat, fun _ => load_zero ?_⟩
        cases h <;> first | rfl | exact absurd rfl flat
  | succ depth ih =>
      by_cases flat : v.nesting = 0
      · exact guarded_load_flat h flat
      cases h with
      | @array items vs parts =>
          have hitems := Guarded.mapM (parts.imp fun _ _ => ih)
          change Guarded _ _ ((items.mapM (load depth)).map Value.array) _
          constructor
          · intro hnesting
            rw [hitems.ok (Value.nesting_array_le_succ_iff.mp hnesting)]
            rfl
          · intro hnesting
            rw [hitems.error fun hall => hnesting (Value.nesting_array_le_succ_iff.mpr hall)]
            rfl
      | @map entries vs parts =>
          have hentries := Guarded.mapM (parts.imp fun _ _ both =>
            guarded_loadPair (both.imp fun _ _ => ih))
          change Guarded _ _ ((entries.mapM (loadPair (load depth))).map Value.map) _
          constructor
          · intro hnesting
            rw [hentries.ok (Value.nesting_map_le_succ_iff.mp hnesting)]
            rfl
          · intro hnesting
            rw [hentries.error fun hall => hnesting (Value.nesting_map_le_succ_iff.mpr hall)]
            rfl
      | _ => exact absurd rfl flat

end Tree

/-! ## Reading what is written -/

/-- Whatever follows, reading what is spelled gives what loading gives and leaves what follows. -/
def Reads {α β : Type} (one : Reader β) (Spelled : α → List UInt8 → Prop)
    (load : α → Except ReadError β) : Prop :=
  ∀ (a : α) (e s : List UInt8), Spelled a e → one (e ++ s) = (load a).map (·, s)

section

variable {α β : Type} {one : Reader β} {Spelled : α → List UInt8 → Prop}
  {load : α → Except ReadError β}

theorem Reads.pair (h : Reads one Spelled load) :
    Reads (readPair one) (Paired Spelled) (loadPair load) := by
  rintro ⟨a, b⟩ _ s ⟨left, right⟩
  rw [readPair, List.append_assoc, h _ _ _ left, loadPair]
  cases load a with
  | error e => rfl
  | ok first =>
      change (one (_ ++ s) >>= _) = _
      rw [h _ _ _ right]
      cases load b with
      | error e => rfl
      | ok second => rfl

theorem Reads.many (h : Reads one Spelled load) {as : List α} {body : List UInt8}
    (parts : Sequence Spelled as body) (done : List β) (s : List UInt8) :
    readMany one as.length done (body ++ s) =
      (as.mapM load).map fun bs => (done.reverse ++ bs, s) := by
  induction parts generalizing done with
  | nil =>
      rw [List.mapM_nil, List.length_nil, List.nil_append, readMany]
      exact congrArg (fun bs => Except.ok (bs, s)) (List.append_nil _).symm
  | @cons a as front back head _ ih =>
      rw [List.length_cons, List.append_assoc, readMany, h _ _ _ head, List.mapM_cons]
      cases load a with
      | error e => rfl
      | ok b =>
          change readMany one as.length (b :: done) (back ++ s) = _
          rw [ih, List.reverse_cons]
          cases as.mapM load with
          | error e => rfl
          | ok bs => exact congrArg (fun bs => Except.ok (bs, s)) (List.append_assoc ..)

end

theorem readNested_of_leaf {v : Value} {p s : List UInt8} (h : readHead p = .ok (.leaf v, s))
    (depth : Nat) : readNested depth p = .ok (v, s) := by
  cases depth with
  | zero => rw [readNested, readWith, h]; rfl
  | succ depth => rw [readNested, readWith, h]; rfl

theorem readNested_extension {kind : UInt8} {contents encoding : List UInt8}
    (h : Written (.extension kind contents) encoding) (depth : Nat) (s : List UInt8) :
    readNested depth (encoding ++ s) = ((Tree.extension kind contents).load depth).map (·, s) := by
  obtain ⟨rest, hhead⟩ := readHead_extension h s
  cases depth with
  | zero => rw [readNested, readWith, hhead]; rfl
  | succ depth => rw [readNested, readWith, hhead]; rfl

/-- Reading any of the ways in which a tree can be written is loading the tree. -/
theorem reads_readNested (depth : Nat) : Reads (readNested depth) Written (Tree.load depth) := by
  intro t e s written
  cases hleaf : t.leaf? with
  | some v =>
      rw [Tree.load_of_leaf hleaf]
      exact readNested_of_leaf (readHead_leaf written hleaf s) depth
  | none =>
      cases written with
      | @array items header body announced parts =>
          rw [List.append_assoc]
          cases depth with
          | zero => rw [Tree.load_zero hleaf, readNested, readWith, readHead_array announced]; rfl
          | succ depth =>
              rw [readNested, readWith, readHead_array announced]
              change (readMany (readNested depth) items.length [] (body ++ s) >>= _) = _
              rw [(reads_readNested depth).many parts]
              change _ = Except.map _ ((items.mapM (Tree.load depth)).map Value.array)
              cases items.mapM (Tree.load depth) with
              | error e => rfl
              | ok vs => rfl
      | @map entries header body announced parts =>
          rw [List.append_assoc]
          cases depth with
          | zero => rw [Tree.load_zero hleaf, readNested, readWith, readHead_map announced]; rfl
          | succ depth =>
              rw [readNested, readWith, readHead_map announced]
              change (readMany (readPair (readNested depth)) entries.length [] (body ++ s) >>= _) =
                _
              rw [(reads_readNested depth).pair.many parts]
              change _ = Except.map _ ((entries.mapM (loadPair (Tree.load depth))).map Value.map)
              cases entries.mapM (loadPair (Tree.load depth)) with
              | error e => rfl
              | ok vs => rfl
      | fixedExtension marked => exact readNested_extension (.fixedExtension marked) depth s
      | extension announced => exact readNested_extension (.extension announced) depth s
      | _ => cases hleaf

/-! ## Finding what was read -/

/-- Whatever is read is spelled in front, by something that is related to the result. -/
def Finds {α β : Type} (one : Reader β) (Spelled : α → List UInt8 → Prop)
    (Related : α → β → Prop) : Prop :=
  ∀ (p s : List UInt8) (b : β), one p = .ok (b, s) → ∃ a e, p = e ++ s ∧ Spelled a e ∧ Related a b

section

variable {α β : Type} {one : Reader β} {Spelled : α → List UInt8 → Prop} {Related : α → β → Prop}

theorem Finds.pair (h : Finds one Spelled Related) :
    Finds (readPair one) (Paired Spelled) (Componentwise Related) := by
  intro p s found hread
  obtain ⟨⟨b, rest⟩, hfirst, hread⟩ := bind_eq_ok_iff.mp hread
  obtain ⟨⟨b', rest'⟩, hsecond, hread⟩ := bind_eq_ok_iff.mp hread
  cases hread
  obtain ⟨a, front, rfl, hleft, hrelated⟩ := h _ _ _ hfirst
  obtain ⟨a', back, rfl, hright, hrelated'⟩ := h _ _ _ hsecond
  exact ⟨(a, a'), front ++ back, (List.append_assoc ..).symm, ⟨hleft, hright⟩,
    ⟨hrelated, hrelated'⟩⟩

theorem Finds.many (h : Finds one Spelled Related) {count : Nat} {done out : List β}
    {p s : List UInt8} (hread : readMany one count done p = .ok (out, s)) :
    ∃ as bs body, p = body ++ s ∧ out = done.reverse ++ bs ∧ as.length = count ∧
      Sequence Spelled as body ∧ List.Forall₂ Related as bs := by
  induction count generalizing done p with
  | zero =>
      cases hread
      exact ⟨[], [], [], rfl, (List.append_nil _).symm, rfl, .nil, .nil⟩
  | succ count ih =>
      rw [readMany] at hread
      split at hread
      · next b rest hone =>
        obtain ⟨a, front, rfl, hspelled, hrelated⟩ := h _ _ _ hone
        obtain ⟨as, bs, body, rfl, rfl, rfl, hparts, hall⟩ := ih hread
        refine ⟨a :: as, b :: bs, front ++ body, (List.append_assoc ..).symm, ?_, rfl,
          .cons hspelled hparts, .cons hrelated hall⟩
        rw [List.reverse_cons, List.append_assoc, List.singleton_append]
      · cases hread

end

/-- Whatever is read is a written tree, of a value whose containers are nested within the limit. -/
theorem finds_readNested (depth : Nat) :
    Finds (readNested depth) Written fun t v => Means t v ∧ v.nesting ≤ depth := by
  induction depth with
  | zero =>
      intro p s v hread
      obtain ⟨⟨head, rest⟩, hhead, hread⟩ := bind_eq_ok_iff.mp hread
      obtain ⟨e, rfl, opening⟩ := opening_of_readHead hhead
      cases opening with
      | leaf written means flat =>
          cases hread
          exact ⟨_, e, rfl, written, means, flat.le⟩
      | _ => cases hread
  | succ depth ih =>
      intro p s v hread
      obtain ⟨⟨head, rest⟩, hhead, hread⟩ := bind_eq_ok_iff.mp hread
      obtain ⟨e, rfl, opening⟩ := opening_of_readHead hhead
      cases opening with
      | leaf written means flat =>
          cases hread
          exact ⟨_, e, rfl, written, means, flat ▸ Nat.zero_le _⟩
      | array announced =>
          obtain ⟨⟨vs, rest'⟩, hmany, hread⟩ := bind_eq_ok_iff.mp hread
          cases hread
          obtain ⟨items, _, body, rfl, rfl, rfl, hparts, hall⟩ := ih.many hmany
          obtain ⟨hmeans, hnesting⟩ := forall₂_and_right.mp hall
          exact ⟨.array items, e ++ body, (List.append_assoc ..).symm, .array announced hparts,
            .array hmeans, Value.nesting_array_le_succ_iff.mpr hnesting⟩
      | map announced =>
          obtain ⟨⟨vs, rest'⟩, hmany, hread⟩ := bind_eq_ok_iff.mp hread
          cases hread
          obtain ⟨entries, _, body, rfl, rfl, rfl, hparts, hall⟩ := ih.pair.many hmany
          obtain ⟨hmeans, hnesting⟩ := forall₂_and_right.mp (hall.imp fun _ _ => Componentwise.and)
          exact ⟨.map entries, e ++ body, (List.append_assoc ..).symm, .map announced hparts,
            .map hmeans, Value.nesting_map_le_succ_iff.mpr hnesting⟩
      | extension => cases hread

/-! ## Acceptance -/

theorem read_eq_ok_iff {p s : List UInt8} {v : Value} :
    read p = .ok (v, s) ↔ ∃ e, p = e ++ s ∧ Encodes v e ∧ v.nesting ≤ nestingLimit := by
  constructor
  · intro h
    obtain ⟨t, e, rfl, hwritten, hmeans, hnesting⟩ := finds_readNested _ _ _ _ h
    exact ⟨e, rfl, ⟨t, hwritten, hmeans⟩, hnesting⟩
  · rintro ⟨e, rfl, ⟨t, hwritten, hmeans⟩, hnesting⟩
    have hload : t.load nestingLimit = .ok v := (Tree.guarded_load hmeans).ok hnesting
    rw [read, reads_readNested _ t e s hwritten, hload]
    rfl

theorem read_of_too_deep {v : Value} {e : List UInt8} (h : Encodes v e)
    (hnesting : nestingLimit < v.nesting) (s : List UInt8) : read (e ++ s) = .error .tooDeep := by
  obtain ⟨t, hwritten, hmeans⟩ := h
  have hload : t.load nestingLimit = .error .tooDeep :=
    (Tree.guarded_load hmeans).error (Nat.not_le.mpr hnesting)
  rw [read, reads_readNested _ t e s hwritten, hload]
  rfl

theorem Sequence.trees {α β : Type} {Spelled : α → List UInt8 → Prop} {Related : α → β → Prop}
    {bs : List β} {body : List UInt8}
    (h : Sequence (fun b e => ∃ a, Spelled a e ∧ Related a b) bs body) :
    ∃ as, Sequence Spelled as body ∧ List.Forall₂ Related as bs := by
  induction h with
  | nil => exact ⟨[], .nil, .nil⟩
  | cons head _ ih =>
      obtain ⟨a, hspelled, hrelated⟩ := head
      obtain ⟨as, hparts, hall⟩ := ih
      exact ⟨a :: as, .cons hspelled hparts, .cons hrelated hall⟩

theorem Sequence.imp {α : Type} {R S : α → List UInt8 → Prop} (h : ∀ a e, R a e → S a e)
    {as : List α} {body : List UInt8} (parts : Sequence R as body) : Sequence S as body := by
  induction parts with
  | nil => exact .nil
  | cons head _ ih => exact .cons (h _ _ head) ih

theorem Encodes.array {vs : List Value} {header body : List UInt8}
    (announced : Announced .array vs.length header) (parts : Sequence Encodes vs body) :
    Encodes (.array vs) (header ++ body) := by
  obtain ⟨items, hparts, hmeans⟩ := parts.trees
  exact ⟨.array items, .array (hmeans.length_eq ▸ announced) hparts, .array hmeans⟩

theorem Encodes.map {vs : List (Value × Value)} {header body : List UInt8}
    (announced : Announced .map vs.length header) (parts : Sequence (Paired Encodes) vs body) :
    Encodes (.map vs) (header ++ body) := by
  have htrees : ∀ pair e, Paired Encodes pair e →
      ∃ trees, Paired Written trees e ∧ Componentwise Means trees pair := by
    rintro _ _ ⟨⟨t, hwritten, hmeans⟩, ⟨t', hwritten', hmeans'⟩⟩
    exact ⟨(t, t'), ⟨hwritten, hwritten'⟩, ⟨hmeans, hmeans'⟩⟩
  obtain ⟨entries, hparts, hmeans⟩ := (parts.imp htrees).trees
  exact ⟨.map entries, .map (hmeans.length_eq ▸ announced) hparts, .map hmeans⟩

theorem read_array_iff {vs : List Value} {header body s : List UInt8}
    (announced : Announced .array vs.length header) (parts : Sequence Encodes vs body) :
    read (header ++ body ++ s) = .ok (.array vs, s) ↔ ∀ v ∈ vs, v.nesting ≤ 1022 := by
  rw [read_eq_ok_iff]
  constructor
  · rintro ⟨-, -, -, hnesting⟩
    exact Value.nesting_array_le_succ_iff.mp hnesting
  · intro hall
    exact ⟨header ++ body, rfl, .array announced parts, Value.nesting_array_le_succ_iff.mpr hall⟩

theorem read_map_iff {vs : List (Value × Value)} {header body s : List UInt8}
    (announced : Announced .map vs.length header) (parts : Sequence (Paired Encodes) vs body) :
    read (header ++ body ++ s) = .ok (.map vs, s) ↔
      ∀ entry ∈ vs, entry.1.nesting ≤ 1022 ∧ entry.2.nesting ≤ 1022 := by
  rw [read_eq_ok_iff]
  constructor
  · rintro ⟨-, -, -, hnesting⟩
    exact Value.nesting_map_le_succ_iff.mp hnesting
  · intro hall
    exact ⟨header ++ body, rfl, .map announced parts, Value.nesting_map_le_succ_iff.mpr hall⟩

/-- The reader takes a value off the front exactly when an encoding of that value stands there in
which at most 1023 containers are nested in one another. A message that starts with no such encoding
is undecodable, and no other is. Containers side by side each have the whole limit of what is
inside. -/
theorem read_accepts_grammar (p : List UInt8) :
    (∀ v s, read p = .ok (v, s) ↔ ∃ e, p = e ++ s ∧ Encodes v e ∧ v.nesting ≤ 1023) ∧
      ((∃ cause, Envelope.decode p = .error (.undecodable cause)) ↔
        ¬∃ v s e, p = e ++ s ∧ Encodes v e ∧ v.nesting ≤ 1023) ∧
      (∀ vs header body s, p = header ++ body ++ s → Announced .array vs.length header →
        Sequence Encodes vs body →
        (read p = .ok (.array vs, s) ↔ ∀ v ∈ vs, v.nesting ≤ 1022)) ∧
      (∀ vs header body s, p = header ++ body ++ s → Announced .map vs.length header →
        Sequence (Paired Encodes) vs body →
        (read p = .ok (.map vs, s) ↔
          ∀ entry ∈ vs, entry.1.nesting ≤ 1022 ∧ entry.2.nesting ≤ 1022)) := by
  refine ⟨fun v s => read_eq_ok_iff, ?_, ?_, ?_⟩
  · constructor
    · rintro ⟨cause, hcause⟩ ⟨v, s, hsplit⟩
      have hread : read p = .ok (v, s) := read_eq_ok_iff.mpr hsplit
      rw [Envelope.undecodable_iff.mp hcause] at hread
      cases hread
    · intro hsplit
      cases hread : read p with
      | error cause => exact ⟨cause, Envelope.undecodable_iff.mpr hread⟩
      | ok found => exact absurd ⟨found.1, found.2, read_eq_ok_iff.mp hread⟩ hsplit
  · rintro vs header body s rfl announced parts
    exact read_array_iff announced parts
  · rintro vs header body s rfl announced parts
    exact read_map_iff announced parts

/-- Two empty arrays stand side by side in an array. -/
theorem read_accepts_siblings :
    read [0x92, 0x90, 0x90] = .ok (.array [.array [], .array []], []) := by
  have hempty : Encodes (.array []) ([0x90] ++ []) := .array (.small rfl rfl (by decide)) .nil
  have hitems : Sequence Encodes [.array [], .array []] ([0x90] ++ ([0x90] ++ [])) :=
    .cons hempty (.cons hempty .nil)
  refine ((read_accepts_grammar [0x92, 0x90, 0x90]).2.2.1 _ [0x92] _ [] rfl
    (.small rfl rfl (by decide)) hitems).mpr ?_
  intro v hv
  have hv : v = .array [] := by simpa using hv
  subst hv
  decide

end LogRelay.MessagePack
