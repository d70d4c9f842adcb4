import LogRelay.Binary64.Basic

/-!
# Shortest decimals

The decimal with the fewest digits that reads back as a given number. The reals that round to a
number form an interval around it, whose ends belong to it exactly when the last fraction bit is
zero. For one digit, two digits and so on, the two points of the decimal grid around the number are
tried; the first grid with a point in the interval decides, of two points the nearer, and of two
points at one distance the larger.
-/

namespace LogRelay.Binary64

/-- A positive decimal `digits * 10 ^ exponent`. -/
structure Decimal where
  /-- The significant digits, read as a whole number. -/
  digits : Nat
  /-- The power of ten that the last digit counts. -/
  exponent : Int
deriving DecidableEq, Repr

/-- The exponent of the largest power of ten that is at most the quotient of two positive
numbers. -/
def floorLog10 (num den : Nat) : Int :=
  if den ≤ num then ((num / den).repr.length : Int) - 1
  else
    let up := (den / num).repr.length
    if den ≤ num * 10 ^ (up - 1) then -((up : Int) - 1) else -(up : Int)

/-- Whether a fraction of units lies in the interval of the reals that round to `x`. Both sides are
scaled by four, so that the half and quarter gaps around a number are whole. -/
def roundsTo (x : Binary64) (num den : Nat) : Bool :=
  let below := if x.fractionBits = 0 && 1 < x.exponentBits then x.ulp else 2 * x.ulp
  let low := 4 * x.units - below
  let high := 4 * x.units + 2 * x.ulp
  if x.fractionBits % 2 = 0 then low * den ≤ 4 * num && 4 * num ≤ high * den
  else low * den < 4 * num && 4 * num < high * den

/-- The better of the two points of the grid of multiples of `10 ^ exponent` around `x`, if one
of them reads back as `x`. -/
def nearestOnGrid? (x : Binary64) (exponent : Int) : Option Decimal :=
  let up := 10 ^ exponent.toNat * unitsPerOne
  let down := 10 ^ (-exponent).toNat
  let low := x.units * down / up
  let high := low + 1
  let lowFits := low != 0 && x.roundsTo (low * up) down
  let highFits := x.roundsTo (high * up) down
  if lowFits && highFits then
    let pick := if 2 * (x.units * down) < (low + high) * up then low else high
    some ⟨pick, exponent⟩
  else if lowFits then some ⟨low, exponent⟩
  else if highFits then some ⟨high, exponent⟩
  else none

/-- The decimal without trailing zero digits; `fuel` bounds how many are taken off. -/
def Decimal.strip : Nat → Decimal → Decimal
  | 0, d => d
  | fuel + 1, d =>
    if d.digits % 10 = 0 then Decimal.strip fuel ⟨d.digits / 10, d.exponent + 1⟩ else d

/-- The shortest decimal that reads back as a positive finite number. Seventeen digits always
suffice. -/
def shortest (x : Binary64) : Decimal :=
  let top := floorLog10 x.units unitsPerOne
  let grids := (List.range 17).map fun (n : Nat) => top - (n : Int)
  (grids.findSome? x.nearestOnGrid?).elim ⟨x.units, 0⟩ (Decimal.strip 17)

end LogRelay.Binary64
