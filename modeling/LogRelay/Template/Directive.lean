import LogRelay.Value.Basic

/-!
# Directives of a message template

A directive asks for the next argument of a record in a certain form, padded to a width. Its spec
collects the flags, the width and the precision that are written between the percent sign and the
letter. Left alignment wins over zeros, and zeros pad numbers only.
-/

namespace LogRelay.Template

/-- Why a template was not rendered. -/
inductive Stop where
  /-- The template and the arguments do not belong together. -/
  | mismatch
  /-- A decimal directive asks for more places than numbers can be written with. -/
  | oversizedPrecision
  /-- There is no room for all that is to be shown. -/
  | capacityOverflow
deriving DecidableEq, Repr

/-- The most decimal places that a number can be written with. -/
def maxPrecision : Nat := 65535

/-- The decimal places shown when a directive names no precision. -/
def defaultPrecision : Nat := 6

/-- The largest width and precision; a longer numeral stands for this number. -/
def numeralLimit : Nat := 2 ^ 64 - 1

/-- The number written by a numeral and one more digit. -/
def appendDigit (n : Nat) (digit : Char) : Nat :=
  min (n * 10 + (digit.toNat - '0'.toNat)) numeralLimit

/-- How an argument is to be shown. -/
structure Spec where
  /-- Pad on the right. -/
  leftAlign : Bool := false
  /-- Pad numbers with zeros. -/
  zeroPad : Bool := false
  /-- The least count of characters. -/
  width : Nat := 0
  /-- The decimal places, if the directive names them. -/
  precision : Option Nat := none
deriving DecidableEq, Repr

/-- Whether a character may stand among the flags. -/
def isFlag (c : Char) : Bool :=
  c = '-' || c = '0' || c = '+' || c = ' ' || c = '#'

/-- The spec after one more flag; three of the flags mean nothing. -/
def Spec.addFlag (spec : Spec) (flag : Char) : Spec :=
  if flag = '-' then { spec with leftAlign := true }
  else if flag = '0' then { spec with zeroPad := true }
  else spec

/-- The forms in which an argument can be shown. -/
inductive Conversion where
  /-- As a message shows it. -/
  | plain
  /-- As a container shows it. -/
  | quoted
  /-- As an integer. -/
  | integer
  /-- As a number with decimal places. -/
  | decimal
deriving DecidableEq, Repr

/-- The form that a letter asks for. -/
def Conversion.ofLetter? (c : Char) : Option Conversion :=
  if c = 's' then some .plain
  else if c = 'r' then some .quoted
  else if c = 'd' || c = 'i' then some .integer
  else if c = 'f' || c = 'F' then some .decimal
  else none

/-- Whether the form is a number, which zeros may pad. -/
def Conversion.isNumeric : Conversion → Bool
  | .plain | .quoted => false
  | .integer | .decimal => true

/-- An argument in the given form, before padding. -/
def Conversion.convert (conversion : Conversion) (precision : Option Nat) (v : Value) :
    Except Stop (List Char) :=
  match conversion with
  | .plain => .ok v.display.toList
  | .quoted => .ok v.repr.toList
  | .integer =>
    match v.integer? with
    | some i => .ok i.repr.toList
    | none => .error .mismatch
  | .decimal =>
    match v.number? with
    | some x =>
      let places := precision.getD defaultPrecision
      if maxPrecision < places then .error .oversizedPrecision else .ok (x.fixed places).toList
    | none => .error .mismatch

end LogRelay.Template
