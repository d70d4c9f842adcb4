import LogRelay.Binary64.Shortest

/-!
# Texts of binary64 numbers

Two written forms. `display` uses the fewest digits that read back, positionally from `1e-4` up to
but not including `1e16` and with an exponent outside that range; a positional text always shows a
fraction. `fixed` shows a given number of decimal places of the exact value, rounded to the nearest
and a tie to the even neighbour. Both keep the sign of a negative zero; a NaN has no sign.
-/

namespace LogRelay.Binary64

/-- Positional notation is used from `10 ^ positionalFrom` … -/
def positionalFrom : Int := -4

/-- … up to but not including `10 ^ positionalBelow`. -/
def positionalBelow : Int := 16

/-- The digits of a number, with zeros in front up to the given width. -/
def paddedDigits (width n : Nat) : List Char :=
  let digits := Nat.toDigits 10 n
  List.replicate (width - digits.length) '0' ++ digits

/-- A whole number of `10 ^ (-places)` in positional notation; no point if `places` is zero. -/
def pointed (places n : Nat) : List Char :=
  let digits := paddedDigits (places + 1) n
  let whole := digits.length - places
  if places = 0 then digits else digits.take whole ++ '.' :: digits.drop whole

/-- Positional text of a decimal, with at least one place after the point. -/
def Decimal.positional (d : Decimal) : List Char :=
  if 0 ≤ d.exponent then pointed 1 (d.digits * 10 ^ d.exponent.toNat * 10)
  else pointed d.exponent.natAbs d.digits

/-- Text of a decimal with one digit before the point and an exponent; no point if that one digit is
all there is. -/
def Decimal.scientific (d : Decimal) : List Char :=
  let digits := Nat.toDigits 10 d.digits
  let exponent := d.exponent + ((digits.length : Int) - 1)
  let fraction := if digits.length ≤ 1 then [] else '.' :: digits.drop 1
  digits.take 1 ++ fraction ++ 'e' :: exponent.repr.toList

/-- The text of a positive decimal in the notation that its size calls for. -/
def Decimal.display (d : Decimal) : List Char :=
  let exponent := d.exponent + (((Nat.toDigits 10 d.digits).length : Int) - 1)
  if positionalFrom ≤ exponent && exponent < positionalBelow then d.positional else d.scientific

/-- A minus sign in front of the text of a negative number. -/
def signed (x : Binary64) (text : List Char) : List Char :=
  if x.isNegative then '-' :: text else text

/-- The text of a number that is not finite. -/
def specialText (x : Binary64) : List Char :=
  if x.isNaN then "NaN".toList else x.signed "inf".toList

/-- The text with the fewest digits that read back. -/
def display (x : Binary64) : String :=
  String.ofList <|
    if !x.isFinite then x.specialText
    else if x.units = 0 then x.signed "0.0".toList
    else x.signed x.shortest.display

/-- The exact value rounded to `places` decimal places. -/
def fixed (places : Nat) (x : Binary64) : String :=
  String.ofList <|
    if !x.isFinite then x.specialText
    else x.signed (pointed places (roundHalfEven (x.units * 10 ^ places) unitsPerOne))

end LogRelay.Binary64
