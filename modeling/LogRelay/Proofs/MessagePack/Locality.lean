import LogRelay.Proofs.MessagePack.Heads

/-!
# Reading is local

A reader decides by the bytes that it takes. Bytes behind them change neither a value that was read
nor an error, unless the error is that the bytes ended too early.
-/

namespace LogRelay.MessagePack

/-- More bytes behind what was read are left over, and more bytes behind an error do not mend it
unless bytes were missing. -/
structure Reader.IsLocal {α : Type} (one : Reader α) : Prop where
  ok : ∀ {p : List UInt8} {a : α} {rest : List UInt8}, one p = .ok (a, rest) →
    ∀ s, one (p ++ s) = .ok (a, rest ++ s)
  error : ∀ {p : List UInt8} {e : ReadError}, one p = .error e → e.isCut = false →
    ∀ s, one (p ++ s) = .error e

namespace Reader

variable {α β : Type} {one : Reader α}

theorem isLocal_pure (a : α) : IsLocal fun bs => .ok (a, bs) := by
  constructor
  · intro p a' rest h s
    cases h
    rfl
  · intro p e h
    cases h

theorem isLocal_throw (e : ReadError) : IsLocal fun _ => (.error e : Except ReadError (α × _)) := by
  constructor
  · intro p a rest h
    cases h
  · intro p e' h _ s
    exact h

theorem IsLocal.bind (h : one.IsLocal) {next : α → Reader β} (hnext : ∀ a, (next a).IsLocal) :
    IsLocal (fun bs => do
      let (a, rest) ← one bs
      next a rest) := by
  constructor
  · intro p b rest hread s
    obtain ⟨⟨a, middle⟩, hone, hread⟩ := bind_eq_ok_iff.mp hread
    exact bind_eq_ok_iff.mpr ⟨_, h.ok hone s, (hnext a).ok hread s⟩
  · intro p e hread hcut s
    refine bind_eq_error_iff.mpr ?_
    rcases bind_eq_error_iff.mp hread with hone | ⟨⟨a, middle⟩, hone, hread⟩
    · exact .inl (h.error hone hcut s)
    · exact .inr ⟨_, h.ok hone s, (hnext a).error hread hcut s⟩

theorem IsLocal.map (h : one.IsLocal) (f : α → β) :
    IsLocal (fun bs => do
      let (a, rest) ← one bs
      .ok (f a, rest)) :=
  h.bind fun a => isLocal_pure (f a)

end Reader

open Reader

/-! ## Heads -/

theorem isLocal_readWord (width : Nat) : (readWord width).IsLocal := by
  constructor
  · intro p number rest h s
    obtain ⟨word, rfl, rfl, rfl⟩ := readWord_eq_ok_iff.mp h
    rw [List.append_assoc, readWord_append]
  · intro p e h hcut
    unfold readWord at h
    split at h
    · cases h
    · cases h
      cases hcut

theorem isLocal_readContents (length : Nat) : (readContents length).IsLocal := by
  constructor
  · intro p contents rest h s
    obtain ⟨rfl, rfl⟩ := readContents_eq_ok_iff.mp h
    rw [List.append_assoc, readContents_append]
  · intro p e h hcut
    unfold readContents at h
    split at h
    · cases h
    · cases h
      cases hcut

theorem isLocal_readAfter (marker : Marker) : (readAfter marker).IsLocal := by
  cases marker with
  | smallInt i => exact isLocal_pure _
  | smallMap count => exact isLocal_pure _
  | smallArray count => exact isLocal_pure _
  | nil => exact isLocal_pure _
  | bool b => exact isLocal_pure _
  | reserved => exact isLocal_throw _
  | smallStr length =>
      exact (isLocal_readContents length).map fun contents => Head.leaf (ofStr contents)
  | bin width =>
      exact (isLocal_readWord width).bind fun length =>
        (isLocal_readContents length).map fun contents => Head.leaf (.bytes contents)
  | str width =>
      exact (isLocal_readWord width).bind fun length =>
        (isLocal_readContents length).map fun contents => Head.leaf (ofStr contents)
  | float32 =>
      exact (isLocal_readWord 4).map fun word =>
        Head.leaf (.float (Binary64.ofBinary32 (UInt32.ofNat word)))
  | float64 => exact (isLocal_readWord 8).map fun word => Head.leaf (.float ⟨UInt64.ofNat word⟩)
  | extension width => exact (isLocal_readWord width).map fun _ => Head.extension
  | uint width => exact (isLocal_readWord width).map fun word => Head.leaf (ofUnsigned word)
  | int width =>
      exact (isLocal_readWord width).map fun word =>
        Head.leaf (.int (Int64.ofInt (signedWord width word)))
  | array width => exact (isLocal_readWord width).map fun count => Head.array count
  | map width => exact (isLocal_readWord width).map fun count => Head.map count

theorem isLocal_readHead : readHead.IsLocal := by
  constructor
  · intro p head rest h s
    cases p with
    | nil => cases h
    | cons b p => exact (isLocal_readAfter _).ok h s
  · intro p e h hcut s
    cases p with
    | nil =>
        cases h
        cases hcut
    | cons b p => exact (isLocal_readAfter _).error h hcut s

/-! ## Values -/

section

variable {α : Type} {one : Reader α}

theorem readMany_succ (one : Reader α) (count : Nat) (done : List α) :
    readMany one (count + 1) done = (fun bs => do
      let (a, rest) ← one bs
      readMany one count (a :: done) rest) := by
  funext bs
  rw [readMany]
  cases one bs with
  | error e => rfl
  | ok found => rfl

theorem isLocal_readMany (h : one.IsLocal) (count : Nat) (done : List α) :
    (readMany one count done).IsLocal := by
  induction count generalizing done with
  | zero => exact isLocal_pure _
  | succ count ih =>
      rw [readMany_succ]
      exact h.bind fun a => ih (a :: done)

theorem isLocal_readPair (h : one.IsLocal) : (readPair one).IsLocal :=
  h.bind fun a => h.map fun b => (a, b)

end

/-- Reads the parts of the container that a head announces. -/
def readInside (inner : Option (Reader Value)) : Head → Reader Value
  | .leaf v => fun bs => .ok (v, bs)
  | .array count =>
    match inner with
    | some one => fun bs => do
      let (items, rest) ← readMany one count [] bs
      .ok (.array items, rest)
    | none => fun _ => .error .tooDeep
  | .map count =>
    match inner with
    | some one => fun bs => do
      let (entries, rest) ← readMany (readPair one) count [] bs
      .ok (.map entries, rest)
    | none => fun _ => .error .tooDeep
  | .extension => fun _ => .error (if inner.isSome then .extension else .tooDeep)

theorem readWith_eq (inner : Option (Reader Value)) :
    readWith inner = (fun bs => do
      let (head, rest) ← readHead bs
      readInside inner head rest) := by
  funext bs
  rw [readWith]
  cases readHead bs with
  | error e => rfl
  | ok found =>
      obtain ⟨head, rest⟩ := found
      cases head <;> cases inner <;> rfl

theorem isLocal_readInside {inner : Option (Reader Value)} (h : ∀ one ∈ inner, one.IsLocal)
    (head : Head) : (readInside inner head).IsLocal := by
  cases head with
  | leaf v => exact isLocal_pure v
  | extension => exact isLocal_throw _
  | array count =>
      cases inner with
      | none => exact isLocal_throw _
      | some one => exact (isLocal_readMany (h one rfl) count []).map fun items => Value.array items
  | map count =>
      cases inner with
      | none => exact isLocal_throw _
      | some one =>
          exact (isLocal_readMany (isLocal_readPair (h one rfl)) count []).map fun entries =>
            Value.map entries

theorem isLocal_readNested (depth : Nat) : (readNested depth).IsLocal := by
  induction depth with
  | zero =>
      rw [readNested, readWith_eq]
      exact isLocal_readHead.bind (isLocal_readInside nofun)
  | succ depth ih =>
      rw [readNested, readWith_eq]
      refine isLocal_readHead.bind (isLocal_readInside fun one hone => ?_)
      cases hone
      exact ih

theorem isLocal_read : Reader.IsLocal read :=
  isLocal_readNested nestingLimit

end LogRelay.MessagePack
