import LogRelay.Session.Run
import LogRelay.Text.Terminal

/-!
# The command line

The command takes its configuration from the environment, runs one relay that passes records on as
events of its own log, and stops it when it is interrupted. What it prints are the events at or
above the configured level, one a line.
-/

namespace LogRelay

/-- A value of an event as it stands in a line. -/
def EventValue.display : EventValue → String
  | .plain s => s
  | .quoted s => Text.quote s
  | .int i => i.toInt.repr
  | .uint n => n.repr

/-- An event as it is printed: the level in five columns, the part that speaks, the message and the
values. -/
def Event.line (e : Event) : String :=
  let level := e.level.name
  let column := String.ofList (List.replicate (5 - level.length) ' ') ++ level
  let values := e.values.map fun v => " " ++ v.1 ++ "=" ++ v.2.display
  column ++ " " ++ e.origin.name ++ ": " ++ Text.disarm e.message ++ String.join values

namespace CommandLine

/-- An event of the command itself. -/
def event (level : EventLevel) (message : String) (values : List (String × EventValue)) : Event :=
  ⟨level, .command, message, values⟩

/-- What the command meets. -/
structure Setup where
  /-- The way from writers to the relay. -/
  network : Network
  /-- Whether another listener holds the configured port of the loopback host. -/
  taken : Bool := false
  /-- A port that nothing uses. -/
  unusedPort : UInt16
  /-- The variables from which the configuration is taken. -/
  environment : Environment

/-- The events of a relay that was started, from there to the end of the command: it waits to be
interrupted, which happens when all that was sent is handled, and then stops. -/
def serve (w : Session.World) (dispatches : List Dispatch) : List Event :=
  let ready := event .info "Log server ready, press Ctrl-C to stop"
    [("address", .plain w.relay.address), ("connect", .plain w.relay.connectAddress)]
  let handled := ((w.report [ready]).send dispatches).1
  let (stopped, result) := handled.stop
  let warnings := match result with
    | .stopped warnings => warnings
    | _ => []
  let passedOn := stopped.loop.sink.events
  stopped.events ++ passedOn ++ warnings.map fun warning =>
    event .warn "Log server shutdown was not clean" [("warning", .plain warning.message)]

/-- The events of the command. -/
def events (setup : Setup) (dispatches : List Dispatch) : List Event :=
  match Config.ofEnvironment setup.unusedPort setup.environment with
  | .error fault =>
    [event .error "Invalid log server configuration. Shutting down."
      [("error", .plain (StartError.invalidConfig fault).message)]]
  | .ok config =>
    let w := Session.World.ofSetup
      { network := setup.network
        config := config
        taken := setup.taken
        picked := setup.unusedPort
        mode := .forward }
    let (started, result) := (w.report [event .debug "Logging subsystem enabled" []]).start
    match result with
    | .notStarted e =>
      started.events ++
        [event .error "Unable to start the log server" [("error", .plain e.message)]]
    | _ => serve started dispatches

/-- The least severe level of the events that are printed. -/
def leastLevel (setup : Setup) : EventLevel :=
  match Config.ofEnvironment setup.unusedPort setup.environment with
  | .ok config => config.level.eventLevel
  | .error _ => Config.defaultLevel.eventLevel

/-- The events that are printed. -/
def printed (setup : Setup) (dispatches : List Dispatch) : List Event :=
  (events setup dispatches).filter fun e => (leastLevel setup).rank ≤ e.level.rank

/-- What is printed. An event whose message or values hold line breaks takes more than one line. -/
def output (setup : Setup) (dispatches : List Dispatch) : String :=
  String.join ((printed setup dispatches).map fun e => e.line ++ "\n")

end CommandLine

end LogRelay
