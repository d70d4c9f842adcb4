import LogRelay.Text.Escape

/-!
# Texts on a terminal

A text in which no terminal sequence can begin or end. Escape, bell, backspace, form feed and delete
are written `\xNN`, and the control characters from U+0080 to U+009F are written `\u` with the code
point in braces. All other characters stay as they are, line breaks too.
-/

namespace LogRelay.Text

/-- The control characters of seven bits that a terminal could act on. -/
def terminalControls : List Char :=
  ['\x07', '\x08', '\x0c', '\x1b', '\x7f']

/-- One character as it is sent to a terminal. -/
def disarmChar (c : Char) : List Char :=
  if terminalControls.contains c then '\\' :: 'x' :: hexPair (UInt8.ofNat c.toNat)
  else if 0x80 ≤ c.toNat && c.toNat ≤ 0x9f then
    ['\\', 'u', '\x7b'] ++ Nat.toDigits 16 c.toNat ++ ['\x7d']
  else [c]

/-- A text as it is sent to a terminal. -/
def disarm (s : String) : String :=
  String.ofList (s.toList.flatMap disarmChar)

end LogRelay.Text
