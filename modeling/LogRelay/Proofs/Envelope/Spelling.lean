import LogRelay.Proofs.MessagePack.Acceptance

/-!
# Spellings of one document

Older writers send texts as byte strings, and any writer is free to choose how wide a header is and
of which family a number is. Trees that differ only in this are loaded as values of the same textual
form, or fail alike, so a record map means the same however it is spelled.
-/

namespace LogRelay.MessagePack

namespace Tree

/-- The tree is the number, in binary32 or in binary64. -/
inductive Number : Tree → Binary64 → Prop
  | float32 {word : UInt32} {x : Binary64} (widens : x.Widens word) : Number (.float32 word) x
  | float64 {x : Binary64} : Number (.float64 x) x

/-- The tree is a string with the contents, of the text or of the binary family. -/
inductive Contents : Tree → List UInt8 → Prop
  | str {contents : List UInt8} : Contents (.str contents) contents
  | bin {contents : List UInt8} : Contents (.bin contents) contents

/-- The two trees are the same but for the families of strings and numbers, each chosen anew at
every place. Which family and which width an integer has is no part of a tree. -/
inductive Alike : Tree → Tree → Prop
  | nil : Alike .nil .nil
  | bool {b : Bool} : Alike (.bool b) (.bool b)
  | integer {i : Int} : Alike (.integer i) (.integer i)
  | number {t u : Tree} {x : Binary64} (left : t.Number x) (right : u.Number x) : Alike t u
  | string {t u : Tree} {contents : List UInt8} (left : t.Contents contents)
      (right : u.Contents contents) : Alike t u
  | extension {kind : UInt8} {contents : List UInt8} :
      Alike (.extension kind contents) (.extension kind contents)
  | array {ts us : List Tree} (parts : List.Forall₂ Alike ts us) : Alike (.array ts) (.array us)
  | map {ts us : List (Tree × Tree)} (parts : List.Forall₂ (Componentwise Alike) ts us) :
      Alike (.map ts) (.map us)

/-! ## Loading -/

/-- The textual form of what loading a tree gives. -/
def loadTextual (depth : Nat) (t : Tree) : Except ReadError Value :=
  (t.load depth).map Value.textual

variable {depth : Nat} {t u : Tree}

theorem loadTextual_of_number {x : Binary64} (h : t.Number x) :
    t.loadTextual depth = .ok (.float x) := by
  have hleaf : t.leaf? = some (.float x) := by
    cases h with
    | float32 widens => rw [leaf?, Binary64.widens_iff.mp widens]
    | float64 => rfl
  rw [loadTextual, load_of_leaf hleaf]
  rfl

theorem loadTextual_of_contents {contents : List UInt8} (h : t.Contents contents) :
    t.loadTextual depth = .ok (.ofBytes contents) := by
  cases h with
  | str =>
      rw [loadTextual, load_of_leaf rfl]
      exact congrArg Except.ok (Value.textual_ofBytes contents)
  | bin =>
      rw [loadTextual, load_of_leaf rfl]
      rfl

theorem loadTextual_array (items : List Tree) :
    (array items).loadTextual (depth + 1) = (items.mapM (loadTextual depth)).map .array := by
  change ((items.mapM (load depth)).map Value.array).map Value.textual = _
  unfold loadTextual
  rw [← map_mapM]
  cases items.mapM (load depth) with
  | error e => rfl
  | ok vs =>
      change Except.ok (Value.array (Value.textualItems vs)) = _
      rw [Value.textualItems_eq_map]
      rfl

theorem loadPair_loadTextual (pair : Tree × Tree) :
    loadPair (loadTextual depth) pair =
      (loadPair (load depth) pair).map (Prod.map Value.textual Value.textual) := by
  unfold loadPair loadTextual
  cases pair.1.load depth with
  | error e => rfl
  | ok first =>
      cases pair.2.load depth with
      | error e => rfl
      | ok second => rfl

theorem loadTextual_map (entries : List (Tree × Tree)) :
    (map entries).loadTextual (depth + 1) =
      (entries.mapM (loadPair (loadTextual depth))).map .map := by
  change ((entries.mapM (loadPair (load depth))).map Value.map).map Value.textual = _
  rw [funext loadPair_loadTextual, ← map_mapM]
  cases entries.mapM (loadPair (load depth)) with
  | error e => rfl
  | ok vs =>
      change Except.ok (Value.map (Value.textualEntries vs)) = _
      rw [Value.textualEntries_eq_map]
      rfl

theorem loadPair_congr {pair pair' : Tree × Tree}
    (h : Componentwise (fun t u => t.loadTextual depth = u.loadTextual depth) pair pair') :
    loadPair (loadTextual depth) pair = loadPair (loadTextual depth) pair' := by
  obtain ⟨hfirst, hsecond⟩ := h
  rw [loadPair, loadPair, hfirst, hsecond]

/-- Trees that are alike give one textual form, or fail with one error. -/
theorem Alike.loadTextual_eq (h : Alike t u) : t.loadTextual depth = u.loadTextual depth := by
  induction depth generalizing t u with
  | zero =>
      cases h with
      | number left right => rw [loadTextual_of_number left, loadTextual_of_number right]
      | string left right => rw [loadTextual_of_contents left, loadTextual_of_contents right]
      | _ => rfl
  | succ depth ih =>
      cases h with
      | number left right => rw [loadTextual_of_number left, loadTextual_of_number right]
      | string left right => rw [loadTextual_of_contents left, loadTextual_of_contents right]
      | array parts =>
          have hitems := parts.imp fun _ _ => ih
          rw [loadTextual_array, loadTextual_array, mapM_congr_forall₂ hitems]
      | map parts =>
          have hpairs := parts.imp fun _ _ both => loadPair_congr (both.imp fun _ _ => ih)
          rw [loadTextual_map, loadTextual_map, mapM_congr_forall₂ hpairs]
      | _ => rfl

theorem map_of_load {entries : List (Tree × Tree)} {v : Value}
    (h : (map entries).load (depth + 1) = .ok v) : ∃ vs, v = .map vs := by
  obtain ⟨vs, -, rfl⟩ := map_eq_ok_iff.mp h
  exact ⟨vs, rfl⟩

end Tree

end LogRelay.MessagePack

namespace LogRelay.Envelope

open MessagePack

theorem ne_sentinel_of_written {entries : List (MessagePack.Tree × MessagePack.Tree)}
    {p : List UInt8} (h : Written (.map entries) p) : p ≠ LogRelay.sentinel := by
  intro hsentinel
  cases h with
  | @map _ header body announced parts =>
      have hhead := readHead_map announced body
      rw [hsentinel] at hhead
      cases hhead

theorem decode_of_written {entries : List (MessagePack.Tree × MessagePack.Tree)} {p : List UInt8}
    (h : Written (.map entries) p) :
    decode p =
      match (MessagePack.Tree.map entries).load nestingLimit with
      | .error cause => .error (.undecodable cause)
      | .ok v => ofValue v := by
  have hread : MessagePack.read p =
      ((MessagePack.Tree.map entries).load nestingLimit).map (·, []) := by
    rw [← reads_readNested nestingLimit _ p [] h, List.append_nil, MessagePack.read]
  cases hload : (MessagePack.Tree.map entries).load nestingLimit with
  | error cause => exact undecodable_iff.mpr (hread.trans (congrArg _ hload))
  | ok v => exact decode_of_read (hread.trans (congrArg _ hload)) (ne_sentinel_of_written h)

theorem ofValue_eq_of_textual_eq {vs ws : List (Value × Value)}
    (h : Value.textual (.map vs) = Value.textual (.map ws)) :
    ofValue (.map vs) = ofValue (.map ws) :=
  calc
    ofValue (.map vs) = ofValue (Value.textual (.map vs)) := (ofValue_textual vs).symm
    _ = ofValue (Value.textual (.map ws)) := congrArg ofValue h
    _ = ofValue (.map ws) := ofValue_textual ws

/-- Two ways of writing a map that choose headers, widths and families of strings and numbers
differently, at whatever places, are decoded as the same record or refused with the same report. -/
theorem decode_eq_of_alike {ts us : List (MessagePack.Tree × MessagePack.Tree)} {p q : List UInt8}
    (hp : Written (.map ts) p) (hq : Written (.map us) q)
    (h : (MessagePack.Tree.map ts).Alike (.map us)) :
    decode p = decode q := by
  have htextual : (MessagePack.Tree.map ts).loadTextual nestingLimit =
      (MessagePack.Tree.map us).loadTextual nestingLimit := h.loadTextual_eq
  rw [decode_of_written hp, decode_of_written hq]
  unfold MessagePack.Tree.loadTextual at htextual
  cases hleft : (MessagePack.Tree.map ts).load nestingLimit with
  | error cause =>
      rw [hleft] at htextual
      rw [map_eq_error_iff.mp htextual.symm]
  | ok v =>
      rw [hleft] at htextual
      obtain ⟨w, hright, hform⟩ := map_eq_ok_iff.mp htextual.symm
      obtain ⟨vs, rfl⟩ := MessagePack.Tree.map_of_load hleft
      obtain ⟨ws, rfl⟩ := MessagePack.Tree.map_of_load hright
      rw [hright]
      exact (ofValue_eq_of_textual_eq hform).symm

/-- A name under a key of the text family, and the same with both strings of the binary family. -/
theorem decode_eq_of_older_writer :
    decode [0x81, 0xa4, 0x6e, 0x61, 0x6d, 0x65, 0xa1, 0x78] =
      decode [0x81, 0xc4, 0x04, 0x6e, 0x61, 0x6d, 0x65, 0xc4, 0x01, 0x78] := by
  have hmodern : Written (.map [(.str [0x6e, 0x61, 0x6d, 0x65], .str [0x78])])
      ([0x81] ++ (([0xa4] ++ [0x6e, 0x61, 0x6d, 0x65]) ++ ([0xa1] ++ [0x78]) ++ [])) :=
    .map (.small rfl rfl (by decide))
      (.cons ⟨.str (.small rfl rfl (by decide)), .str (.small rfl rfl (by decide))⟩ .nil)
  have holder : Written (.map [(.bin [0x6e, 0x61, 0x6d, 0x65], .bin [0x78])])
      ([0x81] ++ (([0xc4, 0x04] ++ [0x6e, 0x61, 0x6d, 0x65]) ++ ([0xc4, 0x01] ++ [0x78]) ++ [])) :=
    .map (.small rfl rfl (by decide))
      (.cons ⟨.bin (.wide (by decide) rfl), .bin (.wide (by decide) rfl)⟩ .nil)
  exact decode_eq_of_alike hmodern holder
    (.map (.cons ⟨.string .str .bin, .string .str .bin⟩ .nil))

end LogRelay.Envelope
