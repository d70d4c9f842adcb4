import LogRelay.Power

/-!
# Markers

The first byte of an encoded value says what the value is. Some markers carry a small number or
count themselves, others are followed by a big-endian number of one, two, four or eight bytes.
-/

namespace LogRelay.MessagePack

/-- The meaning of a first byte. Widths are counts of bytes. -/
inductive Marker where
  /-- An integer that the marker itself holds, from -32 to 127. -/
  | smallInt (i : Int)
  /-- A map whose count of entries the marker holds. -/
  | smallMap (count : Nat)
  /-- An array whose count of items the marker holds. -/
  | smallArray (count : Nat)
  /-- A string whose length the marker holds. -/
  | smallStr (length : Nat)
  /-- No value. -/
  | nil
  /-- The one byte without a meaning. -/
  | reserved
  /-- A truth value. -/
  | bool (b : Bool)
  /-- A byte string after a length of the given width. -/
  | bin (width : Nat)
  /-- An extension after a length of the given width; fixed lengths have width zero. -/
  | extension (width : Nat)
  /-- A binary32 number. -/
  | float32
  /-- A binary64 number. -/
  | float64
  /-- An unsigned integer of the given width. -/
  | uint (width : Nat)
  /-- A signed integer of the given width. -/
  | int (width : Nat)
  /-- A string after a length of the given width. -/
  | str (width : Nat)
  /-- An array after a count of the given width. -/
  | array (width : Nat)
  /-- A map after a count of the given width. -/
  | map (width : Nat)
deriving DecidableEq, Repr

/-- The meaning of a byte as a first byte. -/
def Marker.ofByte (b : UInt8) : Marker :=
  let n := b.toNat
  if n < 0x80 then .smallInt n
  else if n < 0x90 then .smallMap (n - 0x80)
  else if n < 0xa0 then .smallArray (n - 0x90)
  else if n < 0xc0 then .smallStr (n - 0xa0)
  else if n < 0xc1 then .nil
  else if n < 0xc2 then .reserved
  else if n < 0xc4 then .bool (n = 0xc3)
  else if n < 0xc7 then .bin (2 ^ (n - 0xc4))
  else if n < 0xca then .extension (2 ^ (n - 0xc7))
  else if n < 0xcb then .float32
  else if n < 0xcc then .float64
  else if n < 0xd0 then .uint (2 ^ (n - 0xcc))
  else if n < 0xd4 then .int (2 ^ (n - 0xd0))
  else if n < 0xd9 then .extension 0
  else if n < 0xdc then .str (2 ^ (n - 0xd9))
  else if n < 0xde then .array (2 ^ (n - 0xdb))
  else if n < 0xe0 then .map (2 ^ (n - 0xdd))
  else .smallInt ((n : Int) - 256)

end LogRelay.MessagePack
