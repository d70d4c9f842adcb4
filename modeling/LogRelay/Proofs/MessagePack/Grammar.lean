import LogRelay.Proofs.Binary64.Widening
import LogRelay.Value.Textual
import LogRelay.Wire.Bytes
import Mathlib.Data.List.Forall2

/-!
# The grammar of encodings

A document is a tree, and it can be written in many ways: a size or an integer may stand in any
header that can hold it, however wide. The grammar lists all of them, byte by byte and without a
reader. A tree also keeps what a reader drops: whether a string is of the text or of the binary
family, whether a number is of binary32 or of binary64, and extensions, which stand for no value.
-/

namespace LogRelay.MessagePack

/-- A document as it is written, up to the widths of its headers. -/
inductive Tree where
  /-- No value. -/
  | nil
  /-- A truth value. -/
  | bool (b : Bool)
  /-- An integer, of the signed or of the unsigned family. -/
  | integer (i : Int)
  /-- A binary32 number, given by its bits. -/
  | float32 (word : UInt32)
  /-- A binary64 number. -/
  | float64 (x : Binary64)
  /-- A string of the text family. -/
  | str (contents : List UInt8)
  /-- A string of the binary family. -/
  | bin (contents : List UInt8)
  /-- An extension. -/
  | extension (kind : UInt8) (contents : List UInt8)
  /-- Trees in order. -/
  | array (items : List Tree)
  /-- Key and value pairs in order. -/
  | map (entries : List (Tree × Tree))

/-! ## Headers -/

/-- How one family of headers holds a number. -/
structure Heading where
  /-- The first of the markers that hold the number themselves, and how many there are. -/
  small : Option (Nat × Nat)
  /-- The markers that are followed by the number, each with the width of the number in bytes. -/
  wide : List (UInt8 × Nat)

namespace Heading

/-- Integers without sign. -/
def unsigned : Heading := ⟨some (0x00, 128), [(0xcc, 1), (0xcd, 2), (0xce, 4), (0xcf, 8)]⟩

/-- Lengths of strings of the text family. -/
def str : Heading := ⟨some (0xa0, 32), [(0xd9, 1), (0xda, 2), (0xdb, 4)]⟩

/-- Lengths of strings of the binary family. -/
def bin : Heading := ⟨none, [(0xc4, 1), (0xc5, 2), (0xc6, 4)]⟩

/-- Lengths of extensions. -/
def extension : Heading := ⟨none, [(0xc7, 1), (0xc8, 2), (0xc9, 4)]⟩

/-- Counts of the items of arrays. -/
def array : Heading := ⟨some (0x90, 16), [(0xdc, 2), (0xdd, 4)]⟩

/-- Counts of the entries of maps. -/
def map : Heading := ⟨some (0x80, 16), [(0xde, 2), (0xdf, 4)]⟩

end Heading

/-- The markers of signed integers, each with the width of the integer in bytes. -/
def signedMarkers : List (UInt8 × Nat) := [(0xd0, 1), (0xd1, 2), (0xd2, 4), (0xd3, 8)]

/-- The markers of extensions of a fixed length, each with that length. -/
def fixedExtensions : List (UInt8 × Nat) := [(0xd4, 1), (0xd5, 2), (0xd6, 4), (0xd7, 8), (0xd8, 16)]

/-- The bytes are a header that announces the number. -/
inductive Announced (heading : Heading) (number : Nat) : List UInt8 → Prop
  /-- The marker holds the number. -/
  | small {marker : UInt8} {first count : Nat} (range : heading.small = some (first, count))
      (value : marker.toNat = first + number) (bound : number < count) :
      Announced heading number [marker]
  /-- The marker is followed by the number. -/
  | wide {marker : UInt8} {word : List UInt8} (marked : (marker, word.length) ∈ heading.wide)
      (value : Wire.ofBigEndian word = number) : Announced heading number (marker :: word)

/-! ## Documents -/

/-- The bytes spell the things of a list one after another. -/
inductive Sequence {α : Type} (Spelled : α → List UInt8 → Prop) : List α → List UInt8 → Prop
  | nil : Sequence Spelled [] []
  | cons {a : α} {as : List α} {front back : List UInt8} (head : Spelled a front)
      (tail : Sequence Spelled as back) : Sequence Spelled (a :: as) (front ++ back)

/-- The bytes spell the two things of a pair one after another. -/
inductive Paired {α : Type} (Spelled : α → List UInt8 → Prop) : α × α → List UInt8 → Prop
  | mk {a b : α} {front back : List UInt8} (left : Spelled a front) (right : Spelled b back) :
      Paired Spelled (a, b) (front ++ back)

/-- The bytes are one of the ways in which a tree can be written. -/
inductive Written : Tree → List UInt8 → Prop
  | nil : Written .nil [0xc0]
  | false : Written (.bool false) [0xc2]
  | true : Written (.bool true) [0xc3]
  | unsigned {n : Nat} {header : List UInt8} (announced : Announced .unsigned n header) :
      Written (.integer n) header
  /-- The marker is the integer in two's complement. -/
  | negative {i : Int} {marker : UInt8} (lower : -32 ≤ i) (upper : i < 0)
      (value : (marker.toNat : Int) = 256 + i) : Written (.integer i) [marker]
  /-- The marker is followed by the integer in two's complement. -/
  | signed {i : Int} {marker : UInt8} {word : List UInt8}
      (marked : (marker, word.length) ∈ signedMarkers)
      (lower : -2 ^ (8 * word.length - 1) ≤ i) (upper : i < 2 ^ (8 * word.length - 1))
      (value : (Wire.ofBigEndian word : Int) = i % 2 ^ (8 * word.length)) :
      Written (.integer i) (marker :: word)
  | float32 {word : List UInt8} (width : word.length = 4) :
      Written (.float32 (UInt32.ofNat (Wire.ofBigEndian word))) (0xca :: word)
  | float64 {word : List UInt8} (width : word.length = 8) :
      Written (.float64 ⟨UInt64.ofNat (Wire.ofBigEndian word)⟩) (0xcb :: word)
  | str {contents header : List UInt8} (announced : Announced .str contents.length header) :
      Written (.str contents) (header ++ contents)
  | bin {contents header : List UInt8} (announced : Announced .bin contents.length header) :
      Written (.bin contents) (header ++ contents)
  | fixedExtension {marker kind : UInt8} {contents : List UInt8}
      (marked : (marker, contents.length) ∈ fixedExtensions) :
      Written (.extension kind contents) (marker :: kind :: contents)
  | extension {kind : UInt8} {contents header : List UInt8}
      (announced : Announced .extension contents.length header) :
      Written (.extension kind contents) (header ++ kind :: contents)
  | array {items : List Tree} {header body : List UInt8}
      (announced : Announced .array items.length header) (parts : Sequence Written items body) :
      Written (.array items) (header ++ body)
  | map {entries : List (Tree × Tree)} {header body : List UInt8}
      (announced : Announced .map entries.length header)
      (parts : Sequence (Paired Written) entries body) : Written (.map entries) (header ++ body)

/-! ## Values of documents -/

/-- A relation holds between the first and between the second components of two pairs. -/
inductive Componentwise {α β : Type} (Related : α → β → Prop) : α × α → β × β → Prop
  | mk {a c : α} {b d : β} (first : Related a b) (second : Related c d) :
      Componentwise Related (a, c) (b, d)

theorem Componentwise.imp {α β : Type} {R S : α → β → Prop} (h : ∀ a b, R a b → S a b)
    {left : α × α} {right : β × β} (both : Componentwise R left right) :
    Componentwise S left right := by
  obtain ⟨first, second⟩ := both
  exact ⟨h _ _ first, h _ _ second⟩

theorem Componentwise.and {α β : Type} {R : α → β → Prop} {good : β → Prop} {left : α × α}
    {right : β × β} (both : Componentwise (fun a b => R a b ∧ good b) left right) :
    Componentwise R left right ∧ good right.1 ∧ good right.2 := by
  obtain ⟨first, second⟩ := both
  exact ⟨⟨first.1, second.1⟩, first.2, second.2⟩

/-- The value is the one that a tree stands for. An extension stands for none. -/
inductive Means : Tree → Value → Prop
  | nil : Means .nil .nil
  | bool {b : Bool} : Means (.bool b) (.bool b)
  | int {i : Int64} : Means (.integer i.toInt) (.int i)
  /-- Only an integer that is too large for the signed ones is unsigned. -/
  | uint {u : UInt64} (large : 2 ^ 63 ≤ u.toNat) : Means (.integer u.toNat) (.uint u)
  | float32 {word : UInt32} {x : Binary64} (widens : x.Widens word) :
      Means (.float32 word) (.float x)
  | float64 {x : Binary64} : Means (.float64 x) (.float x)
  | text {s : String} : Means (.str (Text.utf8 s)) (.text s)
  /-- A string of the text family that is not UTF-8 is a byte string. -/
  | raw {contents : List UInt8} (invalid : Text.ofUtf8? contents = none) :
      Means (.str contents) (.bytes contents)
  | bytes {contents : List UInt8} : Means (.bin contents) (.bytes contents)
  | array {items : List Tree} {vs : List Value} (parts : List.Forall₂ Means items vs) :
      Means (.array items) (.array vs)
  | map {entries : List (Tree × Tree)} {vs : List (Value × Value)}
      (parts : List.Forall₂ (Componentwise Means) entries vs) : Means (.map entries) (.map vs)

/-- The bytes are a well-formed encoding of a value. -/
def Encodes (v : Value) (encoding : List UInt8) : Prop :=
  ∃ t : Tree, Written t encoding ∧ Means t v

end LogRelay.MessagePack
