import LogRelay.Address
import LogRelay.Power
import LogRelay.Text.Numeral

/-!
# Hosts written as numbers

A host can be written as four octets with dots between them, or in brackets as eight hexadecimal
groups with colons between them. Two colons stand for one or more groups of zero, and the last two
groups can be written as four octets. A percent sign and the number of an interface can follow the
groups. Any other host is a name.
-/

namespace LogRelay.Address

/-- A host written as numbers. -/
inductive Numeric where
  /-- Four octets. -/
  | octets (a b c d : Nat)
  /-- Eight groups of sixteen bits, and the number of an interface or zero. -/
  | groups (gs : List Nat) (scope : Nat)
deriving DecidableEq, Repr

/-- The pieces of a text between the places where `mark` stands. -/
def pieces (mark : Char) : List Char → List (List Char)
  | [] => [[]]
  | c :: cs =>
    match pieces mark cs with
    | [] => [[c]]
    | p :: ps => if c = mark then [] :: p :: ps else (c :: p) :: ps

/-- The value of a hexadecimal digit. -/
def hexValue? (c : Char) : Option Nat :=
  if c.isDigit then some (c.toNat - '0'.toNat)
  else if 'a' ≤ c && c ≤ 'f' then some (c.toNat - 'a'.toNat + 10)
  else if 'A' ≤ c && c ≤ 'F' then some (c.toNat - 'A'.toNat + 10)
  else none

/-- Reads a group, which has one to four hexadecimal digits. -/
def readGroup? (cs : List Char) : Option Nat :=
  if cs.isEmpty || 4 < cs.length then none
  else (cs.mapM hexValue?).map (List.foldl (fun n digit => n * 16 + digit) 0)

/-- Reads an octet, a decimal number below 256 without a leading zero. -/
def readOctet? (cs : List Char) : Option Nat :=
  if 1 < cs.length && cs.head? = some '0' then none
  else (Text.natOfDigits? cs).filter (· < 256)

/-- Reads octets with dots between them. -/
def readOctets? (cs : List Char) : Option (List Nat) :=
  (pieces '.' cs).mapM readOctet?

/-- Reads groups, of which the last two can be written as four octets. -/
def readGroups? : List (List Char) → Option (List Nat)
  | [] => some []
  | [cs] =>
    match readOctets? cs with
    | some [a, b, c, d] => some [a * 256 + b, c * 256 + d]
    | _ => (readGroup? cs).map ([·])
  | cs :: rest => do return (← readGroup? cs) :: (← readGroups? rest)

/-- The groups of one side of two colons, which may be empty. -/
def readSide? (cs : List Char) : Option (List Nat) :=
  if cs.isEmpty then some [] else readGroups? (pieces ':' cs)

/-- What stands before and after the first two colons that follow each other. -/
def cutAtGap : List Char → List Char × Option (List Char)
  | [] => ([], none)
  | ':' :: ':' :: rest => ([], some rest)
  | c :: rest => (c :: (cutAtGap rest).1, (cutAtGap rest).2)

/-- Reads eight groups. Octets can only stand at the end. -/
def readLong? (cs : List Char) : Option (List Nat) :=
  match cutAtGap cs with
  | (whole, none) => (readSide? whole).filter (·.length = 8)
  | (before, some after) =>
    match readSide? before, readSide? after with
    | some head, some tail =>
      if before.contains '.' || 7 < head.length + tail.length then none
      else some (head ++ List.replicate (8 - head.length - tail.length) 0 ++ tail)
    | _, _ => none

/-- Reads what follows the groups: nothing, or a percent sign and a number of 32 bits. -/
def readScope? : List Char → Option Nat
  | [] => some 0
  | '%' :: digits => (Text.natOfDigits? digits).filter (· < 2 ^ 32)
  | _ => none

namespace Numeric

/-- Reads what stands between brackets. -/
def ofBracketed? (cs : List Char) : Option Numeric := do
  let (address, scope) := cs.span (· ≠ '%')
  return .groups (← readLong? address) (← readScope? scope)

/-- Reads a host as numbers, from the form that it has in an address. -/
def ofHost? (host : String) : Option Numeric :=
  match hostChars host.toList with
  | '[' :: rest => if rest.getLast? = some ']' then ofBracketed? rest.dropLast else none
  | cs =>
    match readOctets? cs with
    | some [a, b, c, d] => some (.octets a b c d)
    | _ => none

/-- The octets of a host that is written as octets, or as groups of which only the last two carry
octets. -/
def octets? : Numeric → Option (List Nat)
  | .octets a b c d => some [a, b, c, d]
  | .groups [0, 0, 0, 0, 0, 0xffff, x, y] _ => some [x / 256, x % 256, y / 256, y % 256]
  | .groups _ _ => none

/-- The number of the interface that a host names, or zero. -/
def scope : Numeric → Nat
  | .octets _ _ _ _ => 0
  | .groups _ scope => scope

/-- Whether a host stands for all interfaces. -/
def isUnspecified (n : Numeric) : Bool :=
  n.octets? = some [0, 0, 0, 0] || n = .groups (List.replicate 8 0) n.scope

/-- Whether a host is the local one to which a writer connects by default. -/
def isLoopback (n : Numeric) : Bool :=
  n.octets? = some [127, 0, 0, 1]

/-- Whether a host has a meaning only on one link. -/
def isLinkLocal : Numeric → Bool
  | .groups (g :: _) _ => g / 0x40 = 0x3fa
  | _ => false

/-- Whether a host written as groups stands for a group of receivers. -/
def isMulticast : Numeric → Bool
  | .groups (g :: _) _ => g / 0x100 = 0xff
  | _ => false

end Numeric

end LogRelay.Address
