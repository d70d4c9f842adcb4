import LogRelay.Binary64.Text
import LogRelay.Text.Escape

/-!
# Field values

The values that a log record carries in its fields: nothing, truth values, signed and unsigned
integers of sixty-four bits, binary64 numbers, texts, byte strings, and arrays and maps of values. A
map keeps its entries in order and keeps repeated keys. A signed and an unsigned integer of one
number are different values.
-/

namespace LogRelay

/-- A dynamically typed field value. -/
inductive Value where
  /-- No value. -/
  | nil
  /-- A truth value. -/
  | bool (b : Bool)
  /-- A signed integer. -/
  | int (i : Int64)
  /-- An unsigned integer. -/
  | uint (u : UInt64)
  /-- A binary64 number. -/
  | float (x : Binary64)
  /-- A text. -/
  | text (s : String)
  /-- A byte string. -/
  | bytes (bs : List UInt8)
  /-- Values in order. -/
  | array (items : List Value)
  /-- Key and value pairs in order. -/
  | map (entries : List (Value × Value))
deriving Inhabited

namespace Value

/-- The kinds of value that reports tell apart; both integers are of one kind. -/
inductive Kind where
  | nil | bool | integer | float | text | bytes | array | map
deriving DecidableEq, Repr

/-- The name of a kind in reports. -/
def Kind.name : Kind → String
  | .nil => "nil"
  | .bool => "bool"
  | .integer => "integer"
  | .float => "float"
  | .text => "text"
  | .bytes => "bytes"
  | .array => "array"
  | .map => "map"

/-- The kind of a value. -/
def kind : Value → Kind
  | .nil => .nil
  | .bool _ => .bool
  | .int _ => .integer
  | .uint _ => .integer
  | .float _ => .float
  | .text _ => .text
  | .bytes _ => .bytes
  | .array _ => .array
  | .map _ => .map

/-- The text of a text value. -/
def text? : Value → Option String
  | .text s => some s
  | _ => none

/-- The integer that an integer directive shows: a truth value counts as one or zero, and a finite
number is truncated toward zero. -/
def integer? : Value → Option Int
  | .bool b => some b.toNat
  | .int i => some i.toInt
  | .uint u => some u.toNat
  | .float x => if x.isFinite then some x.truncate else none
  | _ => none

/-- The binary64 number that a decimal directive shows. -/
def number? : Value → Option Binary64
  | .bool b => some (Binary64.ofInt b.toNat)
  | .int i => some (Binary64.ofInt i.toInt)
  | .uint u => some (Binary64.ofInt u.toNat)
  | .float x => some x
  | _ => none

/-- A text in single quotes; a single quote inside it gets a backslash. -/
def quoted (s : String) : String :=
  String.ofList ('\x27' :: s.toList.flatMap (fun c => if c = '\x27' then ['\\', c] else [c])
    ++ ['\x27'])

mutual

/-- The text of a value; a text is quoted if `inner` says that it stands inside a container. -/
def shown (inner : Bool) : Value → String
  | .nil => "None"
  | .bool true => "True"
  | .bool false => "False"
  | .int i => i.toInt.repr
  | .uint u => u.toNat.repr
  | .float x => x.display
  | .text s => if inner then quoted s else s
  | .bytes bs => "b\x27" ++ Text.escapeBytes bs ++ "\x27"
  | .array items => "[" ++ String.intercalate ", " (shownItems items) ++ "]"
  | .map entries => "\x7b" ++ String.intercalate ", " (shownEntries entries) ++ "\x7d"

/-- The texts of the items of an array. -/
def shownItems : List Value → List String
  | [] => []
  | v :: rest => shown true v :: shownItems rest

/-- The texts of the entries of a map. -/
def shownEntries : List (Value × Value) → List String
  | [] => []
  | (k, v) :: rest => (shown true k ++ ": " ++ shown true v) :: shownEntries rest

end

/-- The text of a value as a message shows it. -/
def display (v : Value) : String :=
  v.shown false

/-- The text of a value inside a container: quoted if it is a text. -/
def repr (v : Value) : String :=
  v.shown true

mutual

/-- Equality of values in which numbers compare as numbers, so that a value holding a NaN does not
equal itself. -/
def same : Value → Value → Bool
  | .nil, .nil => true
  | .bool a, .bool b => a == b
  | .int a, .int b => a == b
  | .uint a, .uint b => a == b
  | .float a, .float b => a.numEq b
  | .text a, .text b => a == b
  | .bytes a, .bytes b => a == b
  | .array a, .array b => sameItems a b
  | .map a, .map b => sameEntries a b
  | _, _ => false

/-- Item by item equality of lists of values. -/
def sameItems : List Value → List Value → Bool
  | [], [] => true
  | a :: as, b :: bs => same a b && sameItems as bs
  | _, _ => false

/-- Entry by entry equality of lists of entries. -/
def sameEntries : List (Value × Value) → List (Value × Value) → Bool
  | [], [] => true
  | (k, v) :: as, (l, w) :: bs => same k l && same v w && sameEntries as bs
  | _, _ => false

end

end Value

end LogRelay
