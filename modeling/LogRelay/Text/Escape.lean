/-!
# Escaped bytes

A byte string shown in printable ASCII: tab, carriage return, line feed, both quotes and the
backslash have a backslash form, other bytes outside the printable range are written `\xNN`.
-/

namespace LogRelay.Text

/-- The lower-case hexadecimal digit of a number below sixteen. -/
def hexDigit (n : Nat) : Char :=
  if n < 10 then Char.ofNat ('0'.toNat + n) else Char.ofNat ('a'.toNat + (n - 10))

/-- The two hexadecimal digits of a byte. -/
def hexPair (b : UInt8) : List Char :=
  [hexDigit (b.toNat / 16), hexDigit (b.toNat % 16)]

/-- Bytes in lower-case hexadecimal. -/
def hex (bs : List UInt8) : String :=
  String.ofList (bs.flatMap hexPair)

/-- One byte in escaped form. -/
def escapeByte (b : UInt8) : List Char :=
  if b = 0x09 then ['\\', 't']
  else if b = 0x0d then ['\\', 'r']
  else if b = 0x0a then ['\\', 'n']
  else if b = 0x27 then ['\\', '\x27']
  else if b = 0x22 then ['\\', '\x22']
  else if b = 0x5c then ['\\', '\\']
  else if 0x20 ≤ b && b ≤ 0x7e then [Char.ofNat b.toNat]
  else '\\' :: 'x' :: hexPair b

/-- A byte string in escaped form. -/
def escapeBytes (bs : List UInt8) : String :=
  String.ofList (bs.flatMap escapeByte)

end LogRelay.Text
