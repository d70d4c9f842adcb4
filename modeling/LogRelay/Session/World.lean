import LogRelay.Relay.Basic
import LogRelay.Session.Script
import LogRelay.Worker.Loop

/-!
# A worker in virtual time

Between the steps of a session the worker is at rest: it waits for messages, its sink waits to be
released, or it has ended. While it waits, nothing happens but turns without a message; so it is
enough to know when such a turn next sees the running flag cleared, and when the deadline is
reached. Messages take no time, except when the sink waits.
-/

namespace LogRelay.Session

/-- What the worker is doing. -/
inductive Phase where
  /-- There is no worker. -/
  | absent
  /-- It waits for messages; a turn that saw the running flag set began at `since`. -/
  | polling (since : Nat)
  /-- It waits for messages until its deadline. -/
  | draining (deadline : Nat)
  /-- Its sink waits over a message, and more messages follow. -/
  | waiting (held : Worker.Turn) (queue : List (List UInt8))
  /-- It has ended. -/
  | ended
deriving DecidableEq, Repr

/-- A session between two steps. -/
structure World where
  /-- Where it takes place. -/
  setup : Setup
  /-- The relay. -/
  relay : Relay
  /-- The clock. -/
  now : Nat := 0
  /-- What the worker is doing. -/
  phase : Phase := .absent
  /-- The loop of the worker. -/
  loop : Worker.State Collected := { sink := {} }
  /-- When the worker was told to end. -/
  clearedAt : Option Nat := none
  /-- When the worker received the sentinel. -/
  sentinelAt : Option Nat := none
  /-- When the worker ended. -/
  terminatedAt : Option Nat := none
  /-- When the sink is released. -/
  releasedAt : Option Nat := none
  /-- The events since the session began, in order. -/
  events : List Event := []
  /-- Whether the owner let go of the relay. -/
  gone : Bool := false

namespace World

/-- The world at the start of a session. -/
def ofSetup (setup : Setup) : World where
  setup := setup
  relay := { config := setup.config }

/-- The bounds of all waits. -/
def timeouts (w : World) : Timeouts :=
  w.setup.config.timeouts

/-- The sink of the relay. -/
def sink (w : World) : Sink Collected :=
  w.setup.mode.sink w.setup.config.level

/-- Adds events. -/
def report (w : World) (events : List Event) : World :=
  { w with events := w.events ++ events }

/-- The report of a worker that ends. -/
def terminatedEvent (w : World) : Event :=
  ⟨.debug, .worker, "Process log thread terminated",
    [("address", .plain w.setup.config.address)]⟩

/-- The worker ends. -/
def terminate (w : World) (moment : Nat) : World :=
  { w.report [w.terminatedEvent] with
    phase := .ended
    terminatedAt := some moment
    relay := w.relay.update Shared.terminate }

/-- Whether the worker sees the running flag set at a moment. -/
def runningAt (w : World) (moment : Nat) : Bool :=
  match w.clearedAt with
  | none => true
  | some cleared => moment < cleared

/-- The worker makes one turn that began at `t.now` and is over at `moment`. -/
def turn (w : World) (t : Worker.Turn) (moment : Nat) : World :=
  let (loop, events) := Worker.turn w.timeouts w.sink w.loop t
  let after := { w.report events with
    loop := loop
    relay := w.relay.update loop.signal }
  match loop.ending with
  | none => after
  | some .sentinel => { after.terminate moment with sentinelAt := some moment }
  | some _ => after.terminate moment

/-- The worker goes on to wait for messages at a moment. -/
def rest (w : World) (moment : Nat) : World :=
  if w.loop.ending.isSome then w
  else if w.runningAt moment then { w with phase := .polling moment }
  else
    let after := w.turn ⟨false, moment, .idle⟩ moment
    match after.loop.ending, after.loop.deadline with
    | none, some deadline => { after with phase := .draining deadline }
    | _, _ => after

/-- The worker handles messages that are there at a moment, beginning with a turn that saw the
running flag as given. -/
def consume (w : World) (running : Bool) (moment : Nat) : List (List UInt8) → World
  | [] => w.rest moment
  | payload :: queue =>
    if w.loop.ending.isSome then w
    else
      let t : Worker.Turn := ⟨running, moment, .message payload⟩
      if w.releasedAt.all (moment < ·) && w.setup.mode.waitsOn payload then
        { w with phase := .waiting t queue }
      else (w.turn t moment).consume (w.runningAt moment) moment queue

/-- Messages arrive at the worker at a moment. -/
def deliver (w : World) (moment : Nat) (payloads : List (List UInt8)) : World :=
  if payloads.isEmpty then w
  else
    match w.phase with
    | .absent | .ended => w
    | .polling _ => w.consume true moment payloads
    | .draining _ => w.consume false moment payloads
    | .waiting held queue => { w with phase := .waiting held (queue ++ payloads) }

/-- The sink is released, if that is due by the moment `limit`. -/
def releaseBy (w : World) (limit : Nat) : World :=
  match w.phase, w.releasedAt with
  | .waiting held queue, some moment =>
    if moment ≤ limit then
      let after := w.turn held moment
      after.consume (after.runningAt moment) moment queue
    else w
  | _, _ => w

/-- When the next turn begins that sees the running flag cleared: turns begin at `since` and then
once every `poll`. -/
def noticedAt (since poll cleared : Nat) : Nat :=
  since + max 1 ((cleared - since + poll - 1) / poll) * poll

/-- The worker sees the running flag cleared, if that is due by the moment `limit`. -/
def noticeBy (w : World) (limit : Nat) : World :=
  match w.phase, w.clearedAt with
  | .polling since, some cleared =>
    let moment := noticedAt since w.timeouts.poll.nanos cleared
    if moment ≤ limit then w.rest moment else w
  | _, _ => w

/-- The worker reaches its deadline, if that is due by the moment `limit`. -/
def expireBy (w : World) (limit : Nat) : World :=
  match w.phase with
  | .draining deadline =>
    if deadline ≤ limit then w.turn ⟨false, deadline, .idle⟩ deadline else w
  | _ => w

/-- All that is due by the moment `limit` happens. -/
def advance (w : World) (limit : Nat) : World :=
  ((w.releaseBy limit).noticeBy limit).expireBy limit

/-- A moment by which a worker that was told to end, and whose sink does not wait, has ended. -/
def horizon (w : World) : Nat :=
  max w.now (w.clearedAt.getD 0) + max w.now (w.releasedAt.getD 0) + w.timeouts.poll.nanos
    + w.timeouts.drain.nanos

/-- The session goes on once the worker is at rest: at once if it still runs, else when it has
ended. -/
def settle (w : World) : World :=
  let after := w.advance (if w.clearedAt.isSome then w.horizon else w.now)
  { after with now := max after.now (after.terminatedAt.getD after.now) }

end World

end LogRelay.Session
