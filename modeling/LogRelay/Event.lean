import LogRelay.Level

/-!
# Events

What the relay reports about itself and what it passes on: a level, the part of the program that
speaks, a message and named values in order.
-/

namespace LogRelay

/-- The level of an event. -/
inductive EventLevel where
  | trace | debug | info | warn | error
deriving DecidableEq, Repr

/-- The name of the level of an event. -/
def EventLevel.name : EventLevel → String
  | .trace => "TRACE"
  | .debug => "DEBUG"
  | .info => "INFO"
  | .warn => "WARN"
  | .error => "ERROR"

/-- The place of a level in the order of severity. -/
def EventLevel.rank : EventLevel → Nat
  | .trace => 0
  | .debug => 1
  | .info => 2
  | .warn => 3
  | .error => 4

/-- The level of the event that passes on a record of the given level. -/
def Level.eventLevel : Level → EventLevel
  | .trace => .trace
  | .debug => .debug
  | .info => .info
  | .warning => .warn
  | .error | .critical => .error

/-- The part of the program that an event comes from. -/
inductive Origin where
  /-- Starting and stopping. -/
  | server
  /-- Receiving and passing on. -/
  | worker
  /-- Connections. -/
  | transport
  /-- Records passed on. -/
  | forwarded
  /-- The command line. -/
  | command
deriving DecidableEq, Repr

/-- The name under which a part of the program speaks. -/
def Origin.name : Origin → String
  | .server => "log_server::server"
  | .worker => "log_server::worker"
  | .transport => "log_server::transport"
  | .forwarded => "log_server::forwarded"
  | .command => "log_server_standalone"

/-- A value named in an event. -/
inductive EventValue where
  /-- A text that is shown as it is. -/
  | plain (s : String)
  /-- A text that is shown in quotes. -/
  | quoted (s : String)
  /-- A signed integer. -/
  | int (i : Int64)
  /-- An unsigned integer. -/
  | uint (n : Nat)
deriving DecidableEq, Repr

/-- One report. -/
structure Event where
  /-- The severity. -/
  level : EventLevel
  /-- The part of the program that speaks. -/
  origin : Origin
  /-- The message. -/
  message : String
  /-- Named values in order. -/
  values : List (String × EventValue)
deriving DecidableEq, Repr

/-- A report of the part that starts and stops. -/
def Event.server (level : EventLevel) (message : String)
    (values : List (String × EventValue)) : Event :=
  ⟨level, .server, message, values⟩

end LogRelay
