import LogRelay.Template.Directive
import LogRelay.Text.Utf8

/-!
# Rendering of a message template

A template is read one character at a time. Outside a directive a character stands for itself;
inside one it extends the spec or ends it, and the letter that ends a directive takes the next
argument, except for a percent sign, which stands for itself. What was shown is never read again.
All arguments have to be used. What is shown has to fit the room that there is for it, and this is
looked at each time before something is written.
-/

namespace LogRelay.Template

/-- Where in a template the reading stands. -/
inductive Place where
  /-- Outside directives. -/
  | plain
  /-- Among the flags of a directive. -/
  | flags (spec : Spec)
  /-- In the width of a directive. -/
  | width (spec : Spec)
  /-- In the precision of a directive. -/
  | precision (spec : Spec)
deriving DecidableEq, Repr

/-- How far rendering has come. -/
structure Progress where
  /-- Where the reading stands. -/
  place : Place
  /-- What is shown so far, the last character first. -/
  shown : List Char
  /-- How many bytes more can be shown. -/
  room : Nat
  /-- The arguments not yet used. -/
  args : List Value

/-- Rendering at the start of a template. -/
def start (room : Nat) (args : List Value) : Progress := ⟨.plain, [], room, args⟩

/-! ## Writing -/

/-- Shows a text. -/
def Progress.put (p : Progress) (text : List Char) : Except Stop Progress :=
  if p.room < Text.size text then .error .capacityOverflow
  else .ok { p with shown := text.reverse ++ p.shown, room := p.room - Text.size text }

/-- Shows copies of a character. They are written out only where there is room for all of them. -/
def Progress.fill (p : Progress) (c : Char) (count : Nat) : Except Stop Progress :=
  if p.room < count * c.utf8Size then .error .capacityOverflow
  else p.put (List.replicate count c)

/-- Shows a text brought to the width of a spec. Zeros go between the sign and the digits. -/
def Progress.pad (p : Progress) (spec : Spec) (numeric : Bool) (text : List Char) :
    Except Stop Progress :=
  let missing := spec.width - text.length
  if spec.leftAlign then do
    let p ← p.put text
    p.fill ' ' missing
  else if spec.zeroPad && numeric then
    match text with
    | '-' :: digits => do
      let p ← p.put ['-']
      let p ← p.fill '0' missing
      p.put digits
    | digits => do
      let p ← p.fill '0' missing
      p.put digits
  else do
    let p ← p.fill ' ' missing
    p.put text

/-! ## Reading -/

/-- Ends a directive at its letter. -/
def finishDirective (p : Progress) (spec : Spec) (c : Char) : Except Stop Progress :=
  if c = '%' then { p with place := .plain }.put ['%']
  else
    match Conversion.ofLetter? c, p.args with
    | some conversion, v :: rest =>
      match conversion.convert spec.precision v with
      | .ok text => { p with place := .plain, args := rest }.pad spec conversion.isNumeric text
      | .error stop => .error stop
    | _, _ => .error .mismatch

/-- Reads a character after the point of a directive. -/
def stepPrecision (p : Progress) (spec : Spec) (c : Char) : Except Stop Progress :=
  if c.isDigit then
    let places := appendDigit (spec.precision.getD 0) c
    .ok { p with place := .precision { spec with precision := some places } }
  else finishDirective p spec c

/-- Reads a character after the flags of a directive. -/
def stepWidth (p : Progress) (spec : Spec) (c : Char) : Except Stop Progress :=
  if c.isDigit then
    .ok { p with place := .width { spec with width := appendDigit spec.width c } }
  else if c = '.' then .ok { p with place := .precision { spec with precision := some 0 } }
  else finishDirective p spec c

/-- Reads one character. -/
def step (p : Progress) (c : Char) : Except Stop Progress :=
  match p.place with
  | .plain =>
    if c = '%' then .ok { p with place := .flags {} } else p.put [c]
  | .flags spec =>
    if isFlag c then .ok { p with place := .flags (spec.addFlag c) } else stepWidth p spec c
  | .width spec => stepWidth p spec c
  | .precision spec => stepPrecision p spec c

/-- The text at the end of a template. -/
def Progress.finish (p : Progress) : Except Stop (List Char) :=
  if p.place = .plain && p.args.isEmpty then .ok p.shown.reverse else .error .mismatch

/-- Renders a template with its arguments where there is room for so many bytes. -/
def renderWithin (room : Nat) (template : List Char) (args : List Value) :
    Except Stop (List Char) := do
  let p ← template.foldlM step (start room args)
  p.finish

/-- Renders a template with its arguments. -/
def render (template : List Char) (args : List Value) : Except Stop (List Char) :=
  renderWithin Text.capacity template args

end LogRelay.Template
