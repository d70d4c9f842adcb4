import LogRelay.Value.Basic

/-!
# Well-known fields

The field names that a log record lifts into typed members, with the type rule of each. Every other
name is an extra field.
-/

namespace LogRelay

/-- A well-known field of a log record, in the order in which records are written. -/
inductive Field where
  | name | levelno | levelname | msg | args | pathname | filename | module | funcName | lineno
  | created | msecs | excText | stackInfo | thread | threadName | process | processName | message
deriving DecidableEq, Repr

namespace Field

/-- All well-known fields in writing order. -/
def all : List Field :=
  [.name, .levelno, .levelname, .msg, .args, .pathname, .filename, .module, .funcName, .lineno,
    .created, .msecs, .excText, .stackInfo, .thread, .threadName, .process, .processName, .message]

/-- The name of a field on the wire. -/
def key : Field → String
  | .name => "name"
  | .levelno => "levelno"
  | .levelname => "levelname"
  | .msg => "msg"
  | .args => "args"
  | .pathname => "pathname"
  | .filename => "filename"
  | .module => "module"
  | .funcName => "funcName"
  | .lineno => "lineno"
  | .created => "created"
  | .msecs => "msecs"
  | .excText => "exc_text"
  | .stackInfo => "stack_info"
  | .thread => "thread"
  | .threadName => "threadName"
  | .process => "process"
  | .processName => "processName"
  | .message => "message"

/-- The field that a name on the wire stands for, if it is well known. -/
def ofKey? (key : String) : Option Field :=
  all.find? fun field => field.key == key

/-- What the value of a field has to be, unless it is nil. -/
inductive Rule where
  | text | integer | unsigned | float | anything
deriving DecidableEq, Repr

/-- The name of a rule in reports. -/
def Rule.name : Rule → String
  | .text => "text"
  | .integer => "integer"
  | .unsigned => "unsigned integer"
  | .float => "float"
  | .anything => "anything"

/-- The rule for the value of a field. -/
def rule : Field → Rule
  | .name | .levelname | .pathname | .filename | .module | .funcName | .excText | .stackInfo
  | .threadName | .processName | .message => .text
  | .levelno | .lineno => .integer
  | .thread | .process => .unsigned
  | .created | .msecs => .float
  | .msg | .args => .anything

/-- Whether a byte string under this field has to be UTF-8. A message template may be any value, but
as a byte string it has to be a text too. -/
def isTextual (field : Field) : Bool :=
  field.rule = .text || field = .msg

theorem ofKey?_key (field : Field) : ofKey? field.key = some field := by
  cases field <;> decide

theorem key_of_ofKey? {key : String} {field : Field} (h : ofKey? key = some field) :
    field.key = key := by
  have := List.find?_some h
  simpa using this

theorem key_injective {a b : Field} (h : a.key = b.key) : a = b := by
  have := ofKey?_key b
  rw [← h, ofKey?_key] at this
  exact Option.some.inj this

end Field

end LogRelay
