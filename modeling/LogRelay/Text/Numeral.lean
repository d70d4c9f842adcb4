/-!
# Decimal numerals

Reading of unsigned decimal numerals: ASCII digits, any number of leading zeros, and, where a
numeral stands alone, one optional plus sign. A minus sign is refused even before zero.
-/

namespace LogRelay.Text

/-- The number that a list of digits spells in base ten, continuing from `acc`. -/
def digitsValue (acc : Nat) : List Char → Nat
  | [] => acc
  | c :: cs => digitsValue (acc * 10 + (c.toNat - '0'.toNat)) cs

theorem digitsValue_nil (acc : Nat) : digitsValue acc [] = acc := (rfl)

theorem digitsValue_cons (acc : Nat) (c : Char) (cs : List Char) :
    digitsValue acc (c :: cs) = digitsValue (acc * 10 + (c.toNat - '0'.toNat)) cs := (rfl)

/-- The value of a nonempty list made of digits only. -/
def natOfDigits? (cs : List Char) : Option Nat :=
  if cs.isEmpty || !cs.all Char.isDigit then none else some (digitsValue 0 cs)

/-- Reads a numeral below `bound`, with an optional plus sign. -/
def readBelow? (bound : Nat) (s : String) : Option Nat :=
  let digits := match s.toList with
    | '+' :: rest => rest
    | cs => cs
  (natOfDigits? digits).filter (· < bound)

/-- Reads an unsigned numeral of sixteen bits. -/
def readUInt16? (s : String) : Option UInt16 :=
  (readBelow? UInt16.size s).map UInt16.ofNat

end LogRelay.Text
