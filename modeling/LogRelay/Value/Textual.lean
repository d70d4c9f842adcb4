import LogRelay.Text.Utf8
import LogRelay.Value.Basic

/-!
# Byte strings that spell texts

Older writers send every text as a byte string. `textual` replaces each byte string that is
UTF-8, at any depth and in map keys too, by the text that it spells, and leaves all else as it is.
-/

namespace LogRelay.Value

/-- The text that a byte string spells, or the byte string itself. -/
def ofBytes (bs : List UInt8) : Value :=
  match Text.ofUtf8? bs with
  | some s => .text s
  | none => .bytes bs

mutual

/-- The value in which every byte string that is UTF-8 is a text. -/
def textual : Value → Value
  | .bytes bs => ofBytes bs
  | .array items => .array (textualItems items)
  | .map entries => .map (textualEntries entries)
  | v => v

/-- Each item in textual form. -/
def textualItems : List Value → List Value
  | [] => []
  | v :: rest => textual v :: textualItems rest

/-- Each key and each value in textual form. -/
def textualEntries : List (Value × Value) → List (Value × Value)
  | [] => []
  | (k, v) :: rest => (textual k, textual v) :: textualEntries rest

end

end LogRelay.Value
