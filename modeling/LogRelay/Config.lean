import LogRelay.Address
import LogRelay.Duration
import LogRelay.Level
import LogRelay.Text.Numeral
import LogRelay.Text.Utf8

/-!
# Configuration

What a relay has to know: where to listen, the level from which records are wanted, how many
messages may wait, and the bounds of all its waits. A configuration can be checked, and it can be
taken from four environment variables. A variable that is unset, blank, not text or not a numeral in
range leaves its default; only an unknown level and an unusable queue depth are refused.
-/

namespace LogRelay

/-- The waits that are bounded. -/
inductive Timeout where
  | startup | sentinelAck | join | joinRetry | drain | poll
deriving DecidableEq, Repr

/-- All bounded waits, in the order in which they are checked. -/
def Timeout.all : List Timeout :=
  [.startup, .sentinelAck, .join, .joinRetry, .drain, .poll]

/-- The name of a bounded wait in reports. -/
def Timeout.name : Timeout → String
  | .startup => "startup"
  | .sentinelAck => "sentinel_ack"
  | .join => "join"
  | .joinRetry => "join_retry"
  | .drain => "drain"
  | .poll => "poll"

/-- The bounds of all waits. -/
structure Timeouts where
  /-- How long a start waits for the worker to listen. -/
  startup : Duration := .ofSeconds 5
  /-- How long a stop waits for the worker to read the sentinel. -/
  sentinelAck : Duration := .ofSeconds 5
  /-- The first attempt to join the worker. -/
  join : Duration := .ofSeconds 7
  /-- The second and last attempt to join the worker. -/
  joinRetry : Duration := .ofSeconds 5
  /-- How long a worker goes on receiving after it was told to stop. -/
  drain : Duration := .ofSeconds 5
  /-- How long a worker waits for one message before it looks at its flags again. -/
  poll : Duration := .ofSeconds 1
deriving DecidableEq, Repr, Inhabited

namespace Timeouts

/-- The bound of one wait. -/
def get (t : Timeouts) : Timeout → Duration
  | .startup => t.startup
  | .sentinelAck => t.sentinelAck
  | .join => t.join
  | .joinRetry => t.joinRetry
  | .drain => t.drain
  | .poll => t.poll

/-- The longest that a stop can take. -/
def maxStop (t : Timeouts) : Duration :=
  t.sentinelAck + t.join + t.joinRetry

end Timeouts

/-- Why a configuration is refused. -/
inductive ConfigFault where
  /-- The host is blank. -/
  | blankHost
  /-- No message could ever wait. -/
  | zeroDepth
  /-- The queue depth exceeds what the queue can count. -/
  | oversizedDepth
  /-- A wait would end at once. -/
  | zeroTimeout (timeout : Timeout)
  /-- A wait is longer than a day. -/
  | oversizedTimeout (timeout : Timeout)
  /-- The configured level has no such name. -/
  | unknownLevel (fault : UnknownLevel)
  /-- A reason given in words. -/
  | other (reason : String)
deriving DecidableEq, Repr

/-- The configuration of a relay. -/
structure Config where
  /-- The host to listen on. -/
  host : String
  /-- The port to listen on; zero lets the network pick one. -/
  port : UInt16
  /-- The level from which records are wanted. -/
  level : Level
  /-- How many received messages may wait for the worker. -/
  depth : Nat
  /-- The bounds of all waits. -/
  timeouts : Timeouts
deriving DecidableEq, Repr

namespace Config

/-- The queue depth used when none is configured. -/
def defaultDepth : Nat := 1000000

/-- The largest queue depth that can be counted. -/
def maxDepth : Nat := 2 ^ 61 - 1

/-- The longest that any single wait may be. -/
def maxTimeout : Duration := .ofSeconds (24 * 60 * 60)

/-- The level used when nothing more verbose is configured. -/
def defaultLevel : Level := .error

/-- The configuration used when nothing is configured, listening on the given port. -/
def default (port : UInt16) : Config where
  host := Address.defaultHost
  port := port
  level := defaultLevel
  depth := defaultDepth
  timeouts := {}

/-- The address to listen on. -/
def address (config : Config) : String :=
  Address.tcp config.host config.port

end Config

/-- The text of a reason for refusal. -/
def ConfigFault.message : ConfigFault → String
  | .blankHost => "Log server host cannot be empty"
  | .zeroDepth => "Socket high-water-mark must be greater than 0"
  | .oversizedDepth => "Socket high-water-mark must be at most " ++ Config.maxDepth.repr
  | .zeroTimeout timeout => "Timeout \x27" ++ timeout.name ++ "\x27 must be greater than 0"
  | .oversizedTimeout timeout =>
    "Timeout \x27" ++ timeout.name ++ "\x27 must be at most " ++ Config.maxTimeout.display
  | .unknownLevel fault => fault.message
  | .other reason => reason

namespace Config

/-- What is wrong with the length of one wait. -/
def timeoutFault? (timeouts : Timeouts) (timeout : Timeout) : Option ConfigFault :=
  if timeouts.get timeout = .zero then some (.zeroTimeout timeout)
  else if maxTimeout < timeouts.get timeout then some (.oversizedTimeout timeout)
  else none

/-- The first thing that is wrong with a configuration. -/
def fault? (config : Config) : Option ConfigFault :=
  if (Text.trimChars config.host.toList).isEmpty then some .blankHost
  else if config.depth = 0 then some .zeroDepth
  else if maxDepth < config.depth then some .oversizedDepth
  else Timeout.all.findSome? (timeoutFault? config.timeouts)

/-- Refuses a configuration with which no relay could work. -/
def validate (config : Config) : Except ConfigFault Unit :=
  match config.fault? with
  | some fault => .error fault
  | none => .ok ()

end Config

/-- What an environment variable holds. -/
inductive Setting where
  /-- The variable does not exist. -/
  | unset
  /-- The variable holds a text. -/
  | text (s : String)
  /-- The variable holds bytes that are not UTF-8. -/
  | binary
deriving DecidableEq, Repr

/-- A variable that holds bytes. -/
def Setting.ofBytes (bs : List UInt8) : Setting :=
  match Text.ofUtf8? bs with
  | some s => .text s
  | none => .binary

/-- The text that a variable holds, without the blanks around it. -/
def Setting.trimmed? : Setting → Option String
  | .text s => some (Text.trim s)
  | .unset | .binary => none

/-- The environment variables from which a configuration is taken. -/
structure Environment where
  /-- The host to listen on. -/
  host : Setting := .unset
  /-- The port to listen on. -/
  port : Setting := .unset
  /-- The level from which records are wanted. -/
  level : Setting := .unset
  /-- How many messages may wait. -/
  depth : Setting := .unset
deriving DecidableEq, Repr

namespace Environment

/-- The environment in which each variable is looked up by its name. -/
def collect {m : Type → Type} [Monad m] (lookup : String → m Setting) : m Environment := do
  let host ← lookup "LOG_SERVER_HOST"
  let port ← lookup "LOG_SERVER_PORT"
  let level ← lookup "LOG_SERVER_LEVEL"
  let depth ← lookup "LOG_SERVER_HWM"
  return ⟨host, port, level, depth⟩

/-- The configured host, unless it is blank. -/
def host? (env : Environment) : Option String :=
  env.host.trimmed?.filter (· ≠ "")

/-- The configured port, if it is a numeral in range. -/
def port? (env : Environment) : Option UInt16 :=
  env.port.trimmed?.bind Text.readUInt16?

/-- The configured queue depth, if it is a numeral of at most sixty-four bits. -/
def depth? (env : Environment) : Option Nat :=
  env.depth.trimmed?.bind (Text.readBelow? (2 ^ 64))

/-- The configured level; a text that names none is refused. -/
def level? (env : Environment) : Except UnknownLevel (Option Level) :=
  match env.level with
  | .text s => (Level.parse s).map some
  | .unset | .binary => .ok none

end Environment

/-- The configuration that an environment describes; `unusedPort` is the port to use when none is
configured. -/
def Config.ofEnvironment (unusedPort : UInt16) (env : Environment) : Except ConfigFault Config :=
  match env.level? with
  | .error fault => .error (.unknownLevel fault)
  | .ok level =>
    let config : Config :=
      { host := env.host?.getD Address.defaultHost
        port := env.port?.getD unusedPort
        level := level.getD defaultLevel
        depth := env.depth?.getD defaultDepth
        timeouts := {} }
    match config.validate with
    | .error fault => .error fault
    | .ok _ => .ok config

/-- The level at which writers should forward: the most verbose of the default level and the
configured numbers that are set. -/
def Config.resolveLevel (numbers : List Int64) : Level :=
  Level.ofNumber ((numbers.filter (· ≠ Level.unset)).foldl min defaultLevel.number)

end LogRelay
