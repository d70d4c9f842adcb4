import LogRelay.Text.Utf8
import LogRelay.Value.Basic
import LogRelay.Wire.Bytes

/-!
# Writing values

`pack` writes a value with the shortest header that can announce it. Signed and unsigned integers of
one number are written alike, and numbers are always written in binary64.
-/

namespace LogRelay.MessagePack

open Wire (bigEndian)

/-- A natural number in its shortest form. -/
def packNat (n : Nat) : List UInt8 :=
  if n < 2 ^ 7 then bigEndian 1 n
  else if n < 2 ^ 8 then 0xcc :: bigEndian 1 n
  else if n < 2 ^ 16 then 0xcd :: bigEndian 2 n
  else if n < 2 ^ 32 then 0xce :: bigEndian 4 n
  else 0xcf :: bigEndian 8 n

/-- A negative number, written as `2 ^ (8 * width) + i`, in its shortest form. -/
def packNegative (i : Int) : List UInt8 :=
  if -2 ^ 5 ≤ i then bigEndian 1 (2 ^ 8 + i).toNat
  else if -2 ^ 7 ≤ i then 0xd0 :: bigEndian 1 (2 ^ 8 + i).toNat
  else if -2 ^ 15 ≤ i then 0xd1 :: bigEndian 2 (2 ^ 16 + i).toNat
  else if -2 ^ 31 ≤ i then 0xd2 :: bigEndian 4 (2 ^ 32 + i).toNat
  else 0xd3 :: bigEndian 8 (2 ^ 64 + i).toNat

/-- An integer in its shortest form. -/
def packInt (i : Int) : List UInt8 :=
  if 0 ≤ i then packNat i.toNat else packNegative i

/-- The header of a string of the given length. -/
def strHeader (length : Nat) : List UInt8 :=
  if length < 2 ^ 5 then bigEndian 1 (0xa0 + length)
  else if length < 2 ^ 8 then 0xd9 :: bigEndian 1 length
  else if length < 2 ^ 16 then 0xda :: bigEndian 2 length
  else 0xdb :: bigEndian 4 length

/-- The header of a byte string of the given length. -/
def binHeader (length : Nat) : List UInt8 :=
  if length < 2 ^ 8 then 0xc4 :: bigEndian 1 length
  else if length < 2 ^ 16 then 0xc5 :: bigEndian 2 length
  else 0xc6 :: bigEndian 4 length

/-- The header of an array of `count` items. -/
def arrayHeader (count : Nat) : List UInt8 :=
  if count < 2 ^ 4 then bigEndian 1 (0x90 + count)
  else if count < 2 ^ 16 then 0xdc :: bigEndian 2 count
  else 0xdd :: bigEndian 4 count

/-- The header of a map of `count` entries. -/
def mapHeader (count : Nat) : List UInt8 :=
  if count < 2 ^ 4 then bigEndian 1 (0x80 + count)
  else if count < 2 ^ 16 then 0xde :: bigEndian 2 count
  else 0xdf :: bigEndian 4 count

/-- A text with its header. -/
def packText (s : String) : List UInt8 :=
  let contents := Text.utf8 s
  strHeader contents.length ++ contents

mutual

/-- The encoding of a value. -/
def pack : Value → List UInt8
  | .nil => [0xc0]
  | .bool b => [if b then 0xc3 else 0xc2]
  | .int i => packInt i.toInt
  | .uint u => packNat u.toNat
  | .float x => 0xcb :: bigEndian 8 x.bits.toNat
  | .text s => packText s
  | .bytes bs => binHeader bs.length ++ bs
  | .array items => arrayHeader items.length ++ packItems items
  | .map entries => mapHeader entries.length ++ packEntries entries

/-- The encodings of values one after another. -/
def packItems : List Value → List UInt8
  | [] => []
  | v :: rest => pack v ++ packItems rest

/-- The encodings of keys and values one after another. -/
def packEntries : List (Value × Value) → List UInt8
  | [] => []
  | (k, v) :: rest => pack k ++ (pack v ++ packEntries rest)

end

end LogRelay.MessagePack
