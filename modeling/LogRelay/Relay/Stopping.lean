import LogRelay.Event
import LogRelay.Relay.Basic
import LogRelay.Relay.Stop

/-!
# Stopping a relay

A stop as the owner of a relay makes it: it sends the sentinel unless the worker has ended, waits
for the answer, tells the worker to end and waits for that. When the worker receives the sentinel
and when it ends is up to the worker; connecting and sending take no time.
-/

namespace LogRelay

/-- The address of a relay as a value of an event. -/
def Relay.addressValue (r : Relay) : String × EventValue :=
  ("address", .plain r.address)

namespace Stop

/-- The report of a stop without a worker. -/
def idleEvent (relay : Relay) : Event :=
  .server .warn "Log server is not running" [relay.addressValue]

/-- The report of a stop that begins. -/
def stoppingEvent (relay : Relay) : Event :=
  .server .info "Log server stopping..." [relay.addressValue]

/-- The report of a sentinel that was not received in time. -/
def unacknowledgedEvent (warning : StopWarning) : Event :=
  .server .warn "Log server did not acknowledge the sentinel"
    [("warning", .plain warning.message)]

/-- The report of a connection that could not be closed. -/
def unclosedEvent (e : TransportError) : Event :=
  .server .debug "Failed to close the sentinel connection" [("error", .plain e.message)]

/-- The report of a stop that waits for the worker to end. -/
def joiningEvent : Event :=
  .server .info "Joining the logging server process thread" []

/-- The report of an attempt to join the worker that was in vain. -/
def stillRunningEvent (limit : Duration) : Event :=
  .server .warn "The logging server thread is still running..."
    [("timeout", .plain limit.display)]

/-- The report of a worker that broke down. -/
def panickedEvent : Event :=
  .server .warn "The logging server thread panicked" []

/-- The report of a worker that was joined. -/
def stoppedEvent (relay : Relay) : Event :=
  .server .debug "Log server stopped" [relay.addressValue]

/-- What becomes of the sentinel that a stop would send. -/
inductive Request where
  /-- The worker has ended, so that none is sent. -/
  | spared
  /-- The worker does not listen. -/
  | unaddressed
  /-- No connection was made. -/
  | unconnected (e : TransportError)
  /-- The connection did not take it. -/
  | unsent (e : TransportError)
  /-- It is on its way. -/
  | sent
deriving DecidableEq, Repr

/-- The reports about the sentinel. -/
def Request.events : Request → List Event
  | .spared => []
  | .unaddressed =>
    [.server .warn "Log server has no bound address, unable to send the sentinel" []]
  | .unconnected e =>
    [.server .warn "Unable to connect to the log server" [("error", .plain e.message)]]
  | .unsent e =>
    [.server .warn "Failed to send the sentinel to the log server"
      [("error", .plain e.message)]]
  | .sent => [.server .debug "Sent sentinel to trigger log server shutdown" []]

/-- A connection through which the sentinel could be sent. -/
structure Line where
  /-- What becomes of connecting to a port. -/
  connect : UInt16 → Except TransportError Unit
  /-- What becomes of sending. -/
  send : Except TransportError Unit := .ok ()
  /-- What becomes of closing. -/
  close : Except TransportError Unit := .ok ()

/-- Sends the sentinel to a worker, unless it has ended. -/
def Line.request (line : Line) (shared : Shared) : Request :=
  if shared.terminated then .spared
  else
    match shared.port? with
    | none => .unaddressed
    | some port =>
      match line.connect port, line.send with
      | .error e, _ => .unconnected e
      | .ok _, .error e => .unsent e
      | .ok _, .ok _ => .sent

/-- The reports about closing the connection, if there is one. -/
def Line.closingEvents (line : Line) : Request → List Event
  | .sent =>
    match line.close with
    | .error e => [unclosedEvent e]
    | .ok _ => []
  | _ => []

/-- What a stop meets. -/
structure Setting where
  /-- When it begins. -/
  start : Nat
  /-- When the worker receives the sentinel, if ever. -/
  sentinelAt : Option Nat
  /-- When the worker ends, if ever. -/
  terminatedAt : Option Nat
  /-- The connection. -/
  line : Line
  /-- Whether the worker broke down. -/
  panicked : Bool := false

/-- The state shared with the worker at a moment. -/
def Setting.sharedAt (m : Setting) (shared : Shared) (now : Nat) : Shared :=
  { shared with
    sentinel := shared.sentinel || Flag.isSetBy m.sentinelAt now
    terminated := shared.terminated || Flag.isSetBy m.terminatedAt now }

/-- What a stop did. -/
structure Result where
  /-- What is reported to the owner. -/
  warnings : List StopWarning
  /-- What became of the sentinel. -/
  request : Request
  /-- When the worker was told to end, if there was one. -/
  clearedAt : Option Nat
  /-- When the stop returned. -/
  returnedAt : Nat
  /-- The events in order. -/
  events : List Event

end Stop

namespace Relay

/-- Stops a relay: the relay when the stop returns, and what the stop did. -/
def stop (r : Relay) (m : Stop.Setting) : Relay × Stop.Result :=
  match r.takeWorker? with
  | none => (r, ⟨[], .spared, none, m.start, [Stop.idleEvent r]⟩)
  | some (shared, taken) =>
    let timeouts := r.config.timeouts
    let request := m.line.request shared
    let ack := Stop.acknowledgement timeouts m.start shared.terminated m.sentinelAt
    let course := Stop.course timeouts m.start shared.terminated m.sentinelAt m.terminatedAt
    let after := taken.update fun s => (m.sharedAt s course.returnedAt).clearRunning
    let last :=
      if course.joined then
        (if m.panicked then [Stop.panickedEvent] else []) ++ [Stop.stoppedEvent after]
      else []
    (after,
      { warnings := course.warnings
        request := request
        clearedAt := some course.clearedAt
        returnedAt := course.returnedAt
        events := [Stop.stoppingEvent taken] ++ request.events ++
          (Stop.ackWarnings timeouts ack).map Stop.unacknowledgedEvent ++
          m.line.closingEvents request ++ [Stop.joiningEvent] ++
          course.vain.map Stop.stillRunningEvent ++ last })

end Relay

end LogRelay
