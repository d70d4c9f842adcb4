import LogRelay.Text.Blank

/-!
# Severity levels

The named levels of a log record and the numeric scale on which writers place them. A number between
two named levels counts as the lower one, and any number below `DEBUG` counts as `TRACE`.
-/

namespace LogRelay

/-- A named severity. -/
inductive Level where
  | trace | debug | info | warning | error | critical
deriving DecidableEq, Repr, Inhabited

/-- A text that names no level, in the trimmed lower-case form in which it was looked up. -/
structure UnknownLevel where
  /-- The text. -/
  name : String
deriving DecidableEq, Repr

/-- The text of the report. -/
def UnknownLevel.message (e : UnknownLevel) : String :=
  "Unknown log level \x27" ++ e.name
    ++ "\x27. Must be one of: trace, debug, info, warning, error, critical"

namespace Level

/-- All levels, the least severe first. -/
def all : List Level :=
  [.trace, .debug, .info, .warning, .error, .critical]

/-- The place of a level on the numeric scale. -/
def number : Level → Int64
  | .trace => 5
  | .debug => 10
  | .info => 20
  | .warning => 30
  | .error => 40
  | .critical => 50

/-- The number of a record that has no level. -/
def unset : Int64 := 0

/-- The most severe level at or below a number, or the least severe of all. -/
def ofNumber (n : Int64) : Level :=
  if 50 ≤ n then .critical
  else if 40 ≤ n then .error
  else if 30 ≤ n then .warning
  else if 20 ≤ n then .info
  else if 10 ≤ n then .debug
  else .trace

/-- The name of a level. -/
def name : Level → String
  | .trace => "TRACE"
  | .debug => "DEBUG"
  | .info => "INFO"
  | .warning => "WARNING"
  | .error => "ERROR"
  | .critical => "CRITICAL"

/-- The name of a level as a word of running text. -/
def title : Level → String
  | .trace => "Trace"
  | .debug => "Debug"
  | .info => "Info"
  | .warning => "Warning"
  | .error => "Error"
  | .critical => "Critical"

/-- The word that selects events of at least this level; events know nothing above `error`. -/
def directive : Level → String
  | .trace => "trace"
  | .debug => "debug"
  | .info => "info"
  | .warning => "warn"
  | .error | .critical => "error"

/-- The level that a trimmed lower-case word names. -/
def ofWord? (word : String) : Option Level :=
  if word = "trace" then some .trace
  else if word = "debug" then some .debug
  else if word = "info" then some .info
  else if word = "warn" || word = "warning" then some .warning
  else if word = "error" then some .error
  else if word = "critical" || word = "fatal" then some .critical
  else none

/-- Reads a level from its name; blanks around it and the case of ASCII letters do not matter. -/
def parse (s : String) : Except UnknownLevel Level :=
  let word := String.ofList ((Text.trimChars s.toList).map Char.toLower)
  match ofWord? word with
  | some level => .ok level
  | none => .error ⟨word⟩

/-- A level is below another if it is less severe. -/
instance : LT Level := ⟨fun a b => a.number < b.number⟩

instance (a b : Level) : Decidable (a < b) := inferInstanceAs (Decidable (a.number < b.number))

end Level

end LogRelay
