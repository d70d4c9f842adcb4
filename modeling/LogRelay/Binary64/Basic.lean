import LogRelay.Power

/-!
# Binary64 numbers

A binary64 number is its 64-bit word: one sign bit, eleven exponent bits and fifty-two fraction
bits. Every finite number is a whole multiple of `2 ^ (-1074)`, so its magnitude is held as a
natural number of such units and all arithmetic on it is exact. Conversion from integers rounds to
the nearest number and sends a tie to the even one.
-/

namespace LogRelay

/-- A binary64 number, given by its bits. -/
structure Binary64 where
  /-- The interchange format of the number. -/
  bits : UInt64
deriving DecidableEq, Repr, Inhabited

/-- The quotient of two natural numbers rounded to the nearest natural number, ties to even. -/
def roundHalfEven (num den : Nat) : Nat :=
  let q := num / den
  let r := num % den
  if 2 * r < den then q
  else if den < 2 * r then q + 1
  else if q % 2 = 0 then q else q + 1

namespace Binary64

/-- The sign bit, set also on a negative zero. -/
def isNegative (x : Binary64) : Bool :=
  2 ^ 63 ≤ x.bits.toNat

/-- The eleven exponent bits. -/
def exponentBits (x : Binary64) : Nat :=
  x.bits.toNat / 2 ^ 52 % 2 ^ 11

/-- The fifty-two fraction bits. -/
def fractionBits (x : Binary64) : Nat :=
  x.bits.toNat % 2 ^ 52

/-- Neither infinite nor a NaN. -/
def isFinite (x : Binary64) : Bool :=
  x.exponentBits != 2047

/-- Not a number. -/
def isNaN (x : Binary64) : Bool :=
  x.exponentBits == 2047 && x.fractionBits != 0

/-- One unit in the last place of a finite number, in multiples of `2 ^ (-1074)`. -/
def ulp (x : Binary64) : Nat :=
  2 ^ (x.exponentBits - 1)

/-- The magnitude of a finite number in multiples of `2 ^ (-1074)`. -/
def units (x : Binary64) : Nat :=
  if x.exponentBits = 0 then x.fractionBits else (2 ^ 52 + x.fractionBits) * x.ulp

/-- How many units make up the number one. -/
def unitsPerOne : Nat :=
  2 ^ 1074

/-- The number with the given sign whose exponent and fraction fields spell `magnitude`. -/
def ofFields (negative : Bool) (magnitude : Nat) : Binary64 :=
  ⟨UInt64.ofNat ((if negative then 2 ^ 63 else 0) + magnitude)⟩

/-- Exponent and fraction fields of the number nearest to a natural number, ties to even. A carry
out of the fraction raises the exponent, as it should. -/
def magnitudeOfNat (n : Nat) : Nat :=
  if n = 0 then 0
  else
    let k := n.log2
    (k + 1023) * 2 ^ 52 + (if k ≤ 52 then n * 2 ^ (52 - k) else roundHalfEven n (2 ^ (k - 52)))
      - 2 ^ 52

/-- The number nearest to an integer, ties to even. -/
def ofInt (n : Int) : Binary64 :=
  ofFields (n < 0) (magnitudeOfNat n.natAbs)

/-- The binary64 number equal to a binary32 word. A NaN keeps its leading fraction bits and becomes
quiet. -/
def ofBinary32 (word : UInt32) : Binary64 :=
  let negative := decide (2 ^ 31 ≤ word.toNat)
  let e := word.toNat / 2 ^ 23 % 2 ^ 8
  let f := word.toNat % 2 ^ 23
  if e = 255 then
    ofFields negative (2047 * 2 ^ 52 + (if f = 0 then 0 else 2 ^ 51 ||| f * 2 ^ 29))
  else if e = 0 then
    if f = 0 then ofFields negative 0
    else
      let k := f.log2
      ofFields negative ((k + 874) * 2 ^ 52 + (f * 2 ^ (52 - k) - 2 ^ 52))
  else ofFields negative ((e + 896) * 2 ^ 52 + f * 2 ^ 29)

/-- Comparison as numbers: a NaN equals nothing, and the two zeros are equal. -/
def numEq (x y : Binary64) : Bool :=
  !x.isNaN && !y.isNaN &&
    (x.bits == y.bits || x.units == 0 && y.units == 0 && x.isFinite && y.isFinite)

/-- The largest and smallest integers of 128 bits. -/
def int128Max : Int := 2 ^ 127 - 1

/-- The number truncated toward zero and clamped to the integers of 128 bits. -/
def truncate (x : Binary64) : Int :=
  let whole : Int := x.units / unitsPerOne
  if x.isNegative then max (-whole) (-int128Max - 1) else min whole int128Max

end Binary64

end LogRelay
