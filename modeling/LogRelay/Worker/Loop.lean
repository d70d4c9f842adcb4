import LogRelay.Config
import LogRelay.Envelope
import LogRelay.Event
import LogRelay.Relay.Shared
import LogRelay.Sink.Basic

/-!
# The receive loop

A worker receives messages one at a time and hands each record to its sink. A turn of the loop looks
at the running flag, decides how long to wait and handles what the wait gives. Neither a malformed
message nor a failing sink ends the loop. Once a turn sees the running flag cleared, it fixes a
deadline; later turns end the loop there, unless the sentinel arrives first. The clock counts
nanoseconds.
-/

namespace LogRelay.Worker

/-- What a wait for a message gives. -/
inductive Polled where
  /-- A message. -/
  | message (payload : List UInt8)
  /-- Nothing came in time. -/
  | idle
  /-- Nothing can come any more. -/
  | closed
deriving DecidableEq, Repr

/-- How the loop ends. -/
inductive Ending where
  /-- The sentinel was received. -/
  | sentinel
  /-- The deadline was reached. -/
  | expired
  /-- Nothing can come any more. -/
  | closed
deriving DecidableEq, Repr

/-- What the loop tells the relay when it ends. -/
def Ending.signal (ending : Ending) (shared : Shared) : Shared :=
  match ending with
  | .sentinel => shared.acknowledge
  | .expired | .closed => shared

/-- What a turn decides before it waits. -/
structure Plan where
  /-- The deadline, once it is fixed. -/
  deadline : Option Nat
  /-- How long to wait, or nothing if the deadline is reached. -/
  wait : Option Nat
deriving DecidableEq, Repr

/-- Decides how long a turn waits, from the running flag, the clock and the deadline so far. -/
def plan (timeouts : Timeouts) (running : Bool) (now : Nat) (deadline : Option Nat) : Plan :=
  if running then ⟨deadline, some timeouts.poll.nanos⟩
  else
    let limit := deadline.getD (now + timeouts.drain.nanos)
    ⟨some limit, if limit ≤ now then none else some (min timeouts.poll.nanos (limit - now))⟩

/-- The report that a turn fixes the deadline. -/
def drainingEvent (timeouts : Timeouts) : Event :=
  ⟨.debug, .worker, "Log server is no longer running, draining remaining messages",
    [("timeout", .plain timeouts.drain.display)]⟩

/-- The report that the deadline is reached. -/
def expiredEvent : Event :=
  ⟨.debug, .worker, "Unable to process remaining log messages in time", []⟩

/-- The report that nothing can come any more. -/
def closedEvent : Event :=
  ⟨.error, .worker, "Log receive queue closed unexpectedly", []⟩

/-- The report that the sentinel was received. -/
def sentinelEvent : Event :=
  ⟨.info, .worker, "Received the sentinel to shutdown", []⟩

/-- The report on a message that is no record. -/
def malformedEvent (e : MalformedRecord) (size : Nat) : Event :=
  ⟨.warn, .worker, "Dropping malformed log message",
    [("error", .plain e.message), ("bytes", .uint size)]⟩

/-- The report on a call of the sink, if it failed. -/
def failureEvents (r : LogRecord) (outcome : Outcome) : List Event :=
  let report (values : List (String × EventValue)) : List Event :=
    [⟨.warn, .worker, "Failed to forward log record", values⟩]
  match outcome with
  | .taken => []
  | .rejected reason =>
    report [("logger", .plain r.name), ("error", .plain (SinkError.rejected reason).message)]
  | .panicked reason =>
    report [("error", .plain (SinkError.panicked r.name).message), ("reason", .plain reason)]

/-- The loop between two turns. -/
structure State (σ : Type) where
  /-- The state of the sink. -/
  sink : σ
  /-- The deadline, once it is fixed. -/
  deadline : Option Nat := none
  /-- How the loop ended, if it did. -/
  ending : Option Ending := none

/-- What the loop has told the relay so far. -/
def State.signal {σ : Type} (s : State σ) (shared : Shared) : Shared :=
  match s.ending with
  | none => shared
  | some ending => ending.signal shared

/-- Handles one message. -/
def handle {σ : Type} (sink : Sink σ) (s : State σ) (payload : List UInt8) :
    State σ × List Event :=
  match Envelope.decode payload with
  | .ok .sentinel => ({ s with ending := some .sentinel }, [sentinelEvent])
  | .ok (.record r) =>
    let (after, outcome) := sink.handle s.sink r
    ({ s with sink := after }, failureEvents r outcome)
  | .error e => (s, [malformedEvent e payload.length])

/-- Handles what a wait gives. -/
def react {σ : Type} (sink : Sink σ) (s : State σ) : Polled → State σ × List Event
  | .message payload => handle sink s payload
  | .idle => (s, [])
  | .closed => ({ s with ending := some .closed }, [closedEvent])

/-- What one turn meets. -/
structure Turn where
  /-- Whether the running flag is set when the turn begins. -/
  running : Bool
  /-- The clock when the turn begins. -/
  now : Nat
  /-- What the wait gives, if the turn waits. -/
  polled : Polled
deriving DecidableEq, Repr

/-- One turn of a loop that has not ended, and its reports. -/
def turn {σ : Type} (timeouts : Timeouts) (sink : Sink σ) (s : State σ) (t : Turn) :
    State σ × List Event :=
  if s.ending.isSome then (s, [])
  else
    let p := plan timeouts t.running t.now s.deadline
    let begun := { s with deadline := p.deadline }
    let noticed := if s.deadline.isNone && p.deadline.isSome then [drainingEvent timeouts] else []
    match p.wait with
    | none => ({ begun with ending := some .expired }, noticed ++ [expiredEvent])
    | some _ =>
      let after := react sink begun t.polled
      (after.1, noticed ++ after.2)

/-- The loop over a sequence of turns, and its reports in order. -/
def run {σ : Type} (timeouts : Timeouts) (sink : Sink σ) (s : State σ) :
    List Turn → State σ × List Event
  | [] => (s, [])
  | t :: rest =>
    let now := turn timeouts sink s t
    let later := run timeouts sink now.1 rest
    (later.1, now.2 ++ later.2)

end LogRelay.Worker
