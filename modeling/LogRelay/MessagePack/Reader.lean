import LogRelay.MessagePack.Marker
import LogRelay.Text.Utf8
import LogRelay.Value.Basic
import LogRelay.Wire.Bytes

/-!
# Reading values

`read` takes one value off the front of a byte list and returns what follows it. Values are read one
after another, so an announced count costs nothing until its values are there. Containers may be
nested to a limit; only nesting counts, siblings do not. A string that is not UTF-8 is read as
bytes, and an integer is signed whenever it fits.
-/

namespace LogRelay.MessagePack

/-- How many containers may be nested in one another. -/
def nestingLimit : Nat := 1023

/-- Why no value could be read. -/
inductive ReadError where
  /-- The bytes end where a value should start. -/
  | cutMarker
  /-- The bytes end inside a length, a count or a number. -/
  | cutNumber
  /-- The bytes end inside the contents of a string. -/
  | cutContents
  /-- A value starts with the byte that has no meaning. -/
  | reserved
  /-- An extension is no field value. -/
  | extension
  /-- A container or an extension is nested too deep. -/
  | tooDeep
deriving DecidableEq, Repr

/-- The text of a reading error. -/
def ReadError.message : ReadError → String
  | .cutMarker => "IO error while reading marker: failed to fill whole buffer"
  | .cutNumber => "IO error while reading data: failed to fill whole buffer"
  | .cutContents => "IO error while reading data: unexpected end of file"
  | .reserved => "wrong msgpack marker Reserved"
  | .extension => "invalid type: newtype struct, expected a MessagePack value"
  | .tooDeep => "depth limit exceeded"

/-- Whether the error says only that the bytes ended too early. -/
def ReadError.isCut : ReadError → Bool
  | .cutMarker | .cutNumber | .cutContents => true
  | .reserved | .extension | .tooDeep => false

/-- A reader takes something off the front of a byte list. -/
abbrev Reader (α : Type) := List UInt8 → Except ReadError (α × List UInt8)

/-- What stands in front: a whole value without parts, or the start of something with parts. -/
inductive Head where
  /-- A value without parts. -/
  | leaf (v : Value)
  /-- An array of that many items. -/
  | array (count : Nat)
  /-- A map of that many entries. -/
  | map (count : Nat)
  /-- An extension. -/
  | extension

/-- Reads a big-endian number of the given width. -/
def readWord (width : Nat) : Reader Nat := fun bs =>
  match Wire.cut? width bs with
  | some (word, rest) => .ok (Wire.ofBigEndian word, rest)
  | none => .error .cutNumber

/-- Reads the contents of a string of the given length. -/
def readContents (length : Nat) : Reader (List UInt8) := fun bs =>
  match Wire.cut? length bs with
  | some found => .ok found
  | none => .error .cutContents

/-- The number that a word of the given width stands for in two's complement. -/
def signedWord (width word : Nat) : Int :=
  if word < 2 ^ (8 * width - 1) then word else (word : Int) - 2 ^ (8 * width)

/-- An integer without sign as a value: signed if it fits. -/
def ofUnsigned (n : Nat) : Value :=
  if n < 2 ^ 63 then .int (Int64.ofNat n) else .uint (UInt64.ofNat n)

/-- The contents of a string as a value: a text if they are UTF-8. -/
def ofStr (bs : List UInt8) : Value :=
  match Text.ofUtf8? bs with
  | some s => .text s
  | none => .bytes bs

/-- Reads what a marker announces up to the parts of a container. -/
def readAfter (marker : Marker) : Reader Head := fun bs =>
  match marker with
  | .smallInt i => .ok (.leaf (.int (Int64.ofInt i)), bs)
  | .smallMap count => .ok (.map count, bs)
  | .smallArray count => .ok (.array count, bs)
  | .smallStr length => do
    let (contents, rest) ← readContents length bs
    .ok (.leaf (ofStr contents), rest)
  | .nil => .ok (.leaf .nil, bs)
  | .reserved => .error .reserved
  | .bool b => .ok (.leaf (.bool b), bs)
  | .bin width => do
    let (length, rest) ← readWord width bs
    let (contents, rest) ← readContents length rest
    .ok (.leaf (.bytes contents), rest)
  | .extension width => do
    let (_, rest) ← readWord width bs
    .ok (.extension, rest)
  | .float32 => do
    let (word, rest) ← readWord 4 bs
    .ok (.leaf (.float (Binary64.ofBinary32 (UInt32.ofNat word))), rest)
  | .float64 => do
    let (word, rest) ← readWord 8 bs
    .ok (.leaf (.float ⟨UInt64.ofNat word⟩), rest)
  | .uint width => do
    let (word, rest) ← readWord width bs
    .ok (.leaf (ofUnsigned word), rest)
  | .int width => do
    let (word, rest) ← readWord width bs
    .ok (.leaf (.int (Int64.ofInt (signedWord width word))), rest)
  | .str width => do
    let (length, rest) ← readWord width bs
    let (contents, rest) ← readContents length rest
    .ok (.leaf (ofStr contents), rest)
  | .array width => do
    let (count, rest) ← readWord width bs
    .ok (.array count, rest)
  | .map width => do
    let (count, rest) ← readWord width bs
    .ok (.map count, rest)

/-- Reads a marker and what it announces up to the parts of a container. -/
def readHead : Reader Head
  | [] => .error .cutMarker
  | b :: rest => readAfter (.ofByte b) rest

/-- Reads `count` things one after another; `done` holds those already read, the last one first. -/
def readMany {α : Type} (one : Reader α) : Nat → List α → Reader (List α)
  | 0, done, bs => .ok (done.reverse, bs)
  | count + 1, done, bs =>
    match one bs with
    | .ok (a, rest) => readMany one count (a :: done) rest
    | .error e => .error e

/-- Reads two things one after another. -/
def readPair {α : Type} (one : Reader α) : Reader (α × α) := fun bs => do
  let (a, rest) ← one bs
  let (b, rest) ← one rest
  .ok ((a, b), rest)

/-- Reads one value, given the reader of values inside it; without one the limit is reached. -/
def readWith (inner : Option (Reader Value)) : Reader Value := fun bs => do
  let (head, rest) ← readHead bs
  match head, inner with
  | .leaf v, _ => .ok (v, rest)
  | _, none => .error .tooDeep
  | .extension, some _ => .error .extension
  | .array count, some one => do
    let (items, rest) ← readMany one count [] rest
    .ok (.array items, rest)
  | .map count, some one => do
    let (entries, rest) ← readMany (readPair one) count [] rest
    .ok (.map entries, rest)

/-- Reads one value in which at most `depth` containers are nested in one another. -/
def readNested : Nat → Reader Value
  | 0 => readWith none
  | depth + 1 => readWith (some (readNested depth))

/-- Reads one value. -/
def read : Reader Value :=
  readNested nestingLimit

end LogRelay.MessagePack
