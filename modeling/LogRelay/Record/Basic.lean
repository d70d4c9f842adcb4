import LogRelay.Level
import LogRelay.Record.Extra
import LogRelay.Template.Render

/-!
# Log records

One log event as a writer reports it, with its well-known fields in typed members. A record is shown
to users by the message that its writer rendered, or else by its template with its arguments; a
template that does not fit its arguments is shown as it is.
-/

namespace LogRelay

/-- One log event. -/
structure LogRecord where
  /-- The logger that reported the event. -/
  name : String
  /-- The level on the numeric scale. -/
  levelno : Int64
  /-- The name of the level. -/
  levelname : String
  /-- The message template. -/
  msg : String
  /-- The arguments of the template; an array holds several. -/
  args : Option Value
  /-- The path of the source file. -/
  pathname : Option String
  /-- The last part of that path. -/
  filename : Option String
  /-- The module of the source. -/
  module : Option String
  /-- The function of the source. -/
  funcName : Option String
  /-- The line of the source. -/
  lineno : Option Int64
  /-- Seconds since the epoch. -/
  created : Option Binary64
  /-- The part of that time below a second, in milliseconds. -/
  msecs : Option Binary64
  /-- The text of an exception. -/
  excText : Option String
  /-- The text of a call stack. -/
  stackInfo : Option String
  /-- The thread of the writer. -/
  thread : Option UInt64
  /-- The name of that thread. -/
  threadName : Option String
  /-- The process of the writer. -/
  process : Option UInt64
  /-- The name of that process. -/
  processName : Option String
  /-- The message as the writer rendered it. -/
  message : Option String
  /-- All other fields. -/
  extra : Extra

/-- The ways in which showing a record can fail. -/
inductive FormatFault where
  /-- A decimal directive asks for more places than numbers can be written with. -/
  | oversizedPrecision
  /-- The message would take more bytes than a text can. -/
  | capacityOverflow
deriving DecidableEq, Repr

/-- The text of a fault. -/
def FormatFault.message : FormatFault → String
  | .oversizedPrecision => "Formatting argument out of range"
  | .capacityOverflow => "capacity overflow"

namespace LogRecord

/-- The logger of a record that names none. -/
def rootLogger : String := "root"

/-- A record without any field. -/
def blank : LogRecord where
  name := rootLogger
  levelno := Level.unset
  levelname := ""
  msg := ""
  args := none
  pathname := none
  filename := none
  module := none
  funcName := none
  lineno := none
  created := none
  msecs := none
  excText := none
  stackInfo := none
  thread := none
  threadName := none
  process := none
  processName := none
  message := none
  extra := .empty

/-- A record of a logger, level and template. -/
def create (name : String) (level : Level) (msg : String) : LogRecord :=
  { blank with name, levelno := level.number, levelname := level.name, msg }

/-- The record with arguments for its template. -/
def withArgs (r : LogRecord) (args : List Value) : LogRecord :=
  { r with args := some (.array args) }

/-- The part of a path after its last separator, of either kind. -/
def lastPart (path : String) : String :=
  String.ofList (path.toList.reverse.takeWhile fun c => c != '/' && c != '\x5c').reverse

/-- The record with a place in the source. -/
def withLocation (r : LogRecord) (path : String) (line : Int64) : LogRecord :=
  { r with pathname := some path, filename := some (lastPart path), lineno := some line }

/-- The record with one more extra field. -/
def withExtra (r : LogRecord) (key : String) (value : Value) : LogRecord :=
  { r with extra := r.extra.insert key value }

/-- The level of a record. -/
def level (r : LogRecord) : Level :=
  Level.ofNumber r.levelno

/-- The arguments that a template is rendered with. An empty array and a map count as none. -/
def templateArgs? (args : Option Value) : Option (List Value) :=
  match args with
  | none | some .nil | some (.map _) => none
  | some (.array items) => if items.isEmpty then none else some items
  | some v => some [v]

/-- The message of a record as users see it. -/
def text (r : LogRecord) : Except FormatFault String :=
  match r.message, templateArgs? r.args with
  | some message, _ => .ok message
  | none, none => .ok r.msg
  | none, some args =>
    match Template.render r.msg.toList args with
    | .ok cs => .ok (String.ofList cs)
    | .error .mismatch => .ok r.msg
    | .error .oversizedPrecision => .error .oversizedPrecision
    | .error .capacityOverflow => .error .capacityOverflow

/-- Equality of optional numbers as numbers. -/
def sameNumber : Option Binary64 → Option Binary64 → Bool
  | none, none => true
  | some x, some y => x.numEq y
  | _, _ => false

/-- Equality of optional values in which numbers compare as numbers. -/
def sameValue : Option Value → Option Value → Bool
  | none, none => true
  | some v, some w => v.same w
  | _, _ => false

/-- Equality of extra fields in which numbers compare as numbers. -/
def sameExtra : List (String × Value) → List (String × Value) → Bool
  | [], [] => true
  | (k, v) :: as, (l, w) :: bs => k == l && v.same w && sameExtra as bs
  | _, _ => false

/-- Equality of records in which numbers compare as numbers, so that a record holding a NaN does not
equal itself. -/
def same (a b : LogRecord) : Bool :=
  a.name == b.name && a.levelno == b.levelno && a.levelname == b.levelname && a.msg == b.msg
    && sameValue a.args b.args && a.pathname == b.pathname && a.filename == b.filename
    && a.module == b.module && a.funcName == b.funcName && a.lineno == b.lineno
    && sameNumber a.created b.created && sameNumber a.msecs b.msecs && a.excText == b.excText
    && a.stackInfo == b.stackInfo && a.thread == b.thread && a.threadName == b.threadName
    && a.process == b.process && a.processName == b.processName && a.message == b.message
    && sameExtra a.extra.entries b.extra.entries

end LogRecord

end LogRelay
