import LogRelay.Record.Basic
import LogRelay.Record.Malformed

/-!
# Records and field lists

A record is built from a list of named values by setting one field after another, so the last
occurrence of a name decides. A nil value takes a typed field away again, except for the logger
name, which stays. After that a missing level number is taken from the level name, and a missing
level name from the number. `toFields` lists all well-known fields, absent ones as nil, and then the
extra ones.
-/

namespace LogRelay.LogRecord

/-- A record under construction; the two level fields are kept apart until all fields are known. -/
structure Draft where
  /-- The fields set so far. -/
  record : LogRecord := blank
  /-- The level number, if it is set. -/
  levelno : Option Int64 := none
  /-- The level name, if it is set. -/
  levelname : Option String := none

/-- The typed content of a field, nothing for a nil value; `convert` knows the type. -/
def lift {α : Type} (field : Field) (convert : Value → Option α) (v : Value) :
    Except MalformedRecord (Option α) :=
  match v with
  | .nil => .ok none
  | v =>
    match convert v with
    | some a => .ok (some a)
    | none => .error (.fieldType field field.rule v.kind)

/-- The content of a signed integer field. -/
def signed? : Value → Option Int64
  | .int i => some i
  | _ => none

/-- The content of an unsigned integer field; a signed integer counts unless it is negative. -/
def unsigned? : Value → Option UInt64
  | .uint u => some u
  | .int i => if 0 ≤ i then some i.toUInt64 else none
  | _ => none

/-- The content of a number field; an integer is rounded to the nearest number. -/
def float? : Value → Option Binary64
  | .float x => some x
  | .int i => some (Binary64.ofInt i.toInt)
  | .uint u => some (Binary64.ofInt u.toNat)
  | _ => none

/-- A value as arguments: nil stands for none. -/
def ofArgs : Value → Option Value
  | .nil => none
  | v => some v

namespace Draft

/-- Sets a well-known field. -/
def set (d : Draft) (field : Field) (v : Value) : Except MalformedRecord Draft :=
  match field with
  | .name => (lift field Value.text? v).map fun s =>
    { d with record := { d.record with name := s.getD d.record.name } }
  | .levelno => (lift field signed? v).map fun i => { d with levelno := i }
  | .levelname => (lift field Value.text? v).map fun s => { d with levelname := s }
  | .msg => .ok { d with record := { d.record with msg := v.display } }
  | .args => .ok { d with record := { d.record with args := ofArgs v } }
  | .pathname => (lift field Value.text? v).map fun s =>
    { d with record := { d.record with pathname := s } }
  | .filename => (lift field Value.text? v).map fun s =>
    { d with record := { d.record with filename := s } }
  | .module => (lift field Value.text? v).map fun s =>
    { d with record := { d.record with module := s } }
  | .funcName => (lift field Value.text? v).map fun s =>
    { d with record := { d.record with funcName := s } }
  | .lineno => (lift field signed? v).map fun i =>
    { d with record := { d.record with lineno := i } }
  | .created => (lift field float? v).map fun x =>
    { d with record := { d.record with created := x } }
  | .msecs => (lift field float? v).map fun x =>
    { d with record := { d.record with msecs := x } }
  | .excText => (lift field Value.text? v).map fun s =>
    { d with record := { d.record with excText := s } }
  | .stackInfo => (lift field Value.text? v).map fun s =>
    { d with record := { d.record with stackInfo := s } }
  | .thread => (lift field unsigned? v).map fun u =>
    { d with record := { d.record with thread := u } }
  | .threadName => (lift field Value.text? v).map fun s =>
    { d with record := { d.record with threadName := s } }
  | .process => (lift field unsigned? v).map fun u =>
    { d with record := { d.record with process := u } }
  | .processName => (lift field Value.text? v).map fun s =>
    { d with record := { d.record with processName := s } }
  | .message => (lift field Value.text? v).map fun s =>
    { d with record := { d.record with message := s } }

/-- Adds one named value: sets the well-known field of that name, or else puts an extra field. -/
def add (d : Draft) (entry : String × Value) : Except MalformedRecord Draft :=
  match Field.ofKey? entry.1 with
  | some field => d.set field entry.2
  | none => .ok { d with record := d.record.withExtra entry.1 entry.2 }

/-- The level number: as set, or that of the level name, or unset. -/
def resolvedNumber (d : Draft) : Int64 :=
  match d.levelno, d.levelname with
  | some n, _ => n
  | none, some s =>
    match Level.parse s with
    | .ok level => level.number
    | .error _ => Level.unset
  | none, none => Level.unset

/-- The level name: as set, or that of the level number. -/
def resolvedName (d : Draft) : String :=
  match d.levelname with
  | some s => s
  | none =>
    if d.resolvedNumber = Level.unset then "NOTSET" else (Level.ofNumber d.resolvedNumber).name

/-- The finished record. -/
def finish (d : Draft) : LogRecord :=
  { d.record with levelno := d.resolvedNumber, levelname := d.resolvedName }

end Draft

/-- Builds a record from named values. -/
def ofFields (entries : List (String × Value)) : Except MalformedRecord LogRecord :=
  (entries.foldlM Draft.add {}).map Draft.finish

/-- An optional text as a field value. -/
def ofText? (s : Option String) : Value :=
  s.elim .nil .text

/-- The value of a well-known field. -/
def fieldValue (r : LogRecord) : Field → Value
  | .name => .text r.name
  | .levelno => .int r.levelno
  | .levelname => .text r.levelname
  | .msg => .text r.msg
  | .args => r.args.getD .nil
  | .pathname => ofText? r.pathname
  | .filename => ofText? r.filename
  | .module => ofText? r.module
  | .funcName => ofText? r.funcName
  | .lineno => r.lineno.elim .nil .int
  | .created => r.created.elim .nil .float
  | .msecs => r.msecs.elim .nil .float
  | .excText => ofText? r.excText
  | .stackInfo => ofText? r.stackInfo
  | .thread => r.thread.elim .nil .uint
  | .threadName => ofText? r.threadName
  | .process => r.process.elim .nil .uint
  | .processName => ofText? r.processName
  | .message => ofText? r.message

/-- All fields of a record: the well-known ones in writing order, then the extra ones. -/
def toFields (r : LogRecord) : List (String × Value) :=
  Field.all.map (fun field => (field.key, r.fieldValue field)) ++ r.extra.entries

end LogRelay.LogRecord
