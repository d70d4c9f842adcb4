/-!
# Blank characters

The characters that carry the Unicode property `White_Space`, and the removal of such characters
from both ends of a text. Joiners and byte-order marks (U+200B, U+FEFF) are not blank.
-/

namespace LogRelay.Text

/-- Closed ranges of code points with the property `White_Space`, in increasing order. -/
def blankRanges : List (Nat × Nat) :=
  [(0x09, 0x0d), (0x20, 0x20), (0x85, 0x85), (0xa0, 0xa0), (0x1680, 0x1680), (0x2000, 0x200a),
    (0x2028, 0x2029), (0x202f, 0x202f), (0x205f, 0x205f), (0x3000, 0x3000)]

/-- Whether a character is blank. -/
def isBlank (c : Char) : Bool :=
  blankRanges.any fun range => range.1 ≤ c.toNat && c.toNat ≤ range.2

/-- The characters left when blanks are taken off both ends. -/
def trimChars (cs : List Char) : List Char :=
  ((cs.dropWhile isBlank).reverse.dropWhile isBlank).reverse

/-- The text left when blanks are taken off both ends. -/
def trim (s : String) : String :=
  String.ofList (trimChars s.toList)

end LogRelay.Text
