import LogRelay.Relay.Basic
import LogRelay.Relay.Start
import LogRelay.Worker.Loop

/-!
# A relay and its worker side by side

The owner of a relay makes one call after another, and the worker goes its own way meanwhile. Each
touch of the state that they share is one step, and the steps of the two take turns in any order.
There is no clock: a wait ends at once if its flag is set, and otherwise its time may be over at any
moment, just as a message may reach the worker at any moment.
-/

namespace LogRelay

/-- What the owner of a relay asks of it. -/
inductive Call where
  | start | stop | isRunning | port
deriving DecidableEq, Repr

/-- What a call gives. -/
inductive Answer where
  /-- The relay was started. -/
  | started
  /-- The relay was not started. -/
  | notStarted (e : StartError)
  /-- The relay was stopped. -/
  | stopped (warnings : List StopWarning)
  /-- Whether the relay has a worker that did not end. -/
  | running (b : Bool)
  /-- The port of the relay. -/
  | port (port : UInt16)
deriving DecidableEq, Repr

/-- What a start gives. -/
def Answer.ofStart : Except StartError Unit → Answer
  | .ok _ => .started
  | .error e => .notStarted e

/-- What the owner sees happen. -/
inductive Happening where
  /-- A call begins. -/
  | called (call : Call)
  /-- A worker is created. -/
  | spawned
  /-- A call returns. -/
  | returned (answer : Answer)
  /-- The owner lets go of the relay. -/
  | dropped
deriving DecidableEq, Repr

/-- What the owner is doing. -/
inductive Conduct where
  /-- No call is under way. -/
  | free
  /-- A start waits for the running flag. -/
  | awaiting
  /-- A start waited in vain, with `remaining` nanoseconds left before that. -/
  | checking (remaining : Nat)
  /-- A start gives up on the worker. -/
  | abandoning
  /-- A stop looks whether the worker has ended. -/
  | asking
  /-- A stop waits for the sentinel flag. -/
  | acknowledging
  /-- A stop tells the worker to end. -/
  | telling (warnings : List StopWarning)
  /-- A stop waits for the terminated flag, for one span after another. -/
  | joining (spans : List Duration) (warnings : List StopWarning)
  /-- The owner lets go of a relay whose worker has not ended. -/
  | dropping
  /-- The owner let go of the relay. -/
  | gone
deriving DecidableEq, Repr

/-- How far the worker is. -/
inductive Stage where
  /-- There is none. -/
  | absent
  /-- It is about to listen. -/
  | binding
  /-- It listens on a port and has not told so. -/
  | bound (port : UInt16)
  /-- It is between two turns of its loop. -/
  | serving
  /-- It is in a turn that began at `now` and waits for a message. -/
  | waiting (running : Bool) (now : Nat)
  /-- It is about to end. -/
  | leaving
  /-- It has ended. -/
  | ended
deriving DecidableEq, Repr

/-- A relay with its worker. -/
structure Life (σ : Type) where
  /-- The relay. -/
  relay : Relay
  /-- What the owner is doing. -/
  conduct : Conduct := .free
  /-- How far the worker is. -/
  stage : Stage := .absent
  /-- The loop of the worker. -/
  loop : Worker.State σ
  /-- How often the worker began to wait for a message. -/
  polls : Nat := 0
  /-- What the owner saw happen, in order. -/
  history : List Happening := []

namespace Life

/-- One step of one side. -/
inductive Action where
  /-- The owner calls for a start, in which no worker can be created if there is a fault. -/
  | start (fault : Option SystemFault)
  /-- The owner calls for a stop. -/
  | stop
  /-- The owner asks whether the relay runs. -/
  | isRunning
  /-- The owner asks for the port. -/
  | port
  /-- The owner lets go of the relay. -/
  | drop
  /-- The call that is under way goes on; `remaining` nanoseconds of the time for a start are
  left. -/
  | proceed (remaining : Nat)
  /-- The worker listens on a port, or it cannot listen. -/
  | bind (port : Option UInt16)
  /-- The worker tells where it listens. -/
  | publish
  /-- The worker begins a turn of its loop. -/
  | look (now : Nat)
  /-- The wait for a message is over. -/
  | take (polled : Worker.Polled)
  /-- The worker breaks down. -/
  | collapse
  /-- The worker ends. -/
  | terminate
deriving DecidableEq, Repr

variable {σ : Type}

/-- A relay that was never started, and the state of its sink. -/
def ofConfig (config : Config) (sink : σ) : Life σ where
  relay := { config := config }
  loop := { sink := sink }

/-- The bounds of all waits. -/
def timeouts (w : Life σ) : Timeouts :=
  w.relay.config.timeouts

/-- A flag, which is not set as long as there is no shared state. -/
def flag (w : Life σ) (get : Shared → Bool) : Bool :=
  (w.relay.shared.map get).getD false

/-- Something happens that the owner sees. -/
def record (w : Life σ) (happenings : List Happening) : Life σ :=
  { w with history := w.history ++ happenings }

/-- A call returns. -/
def answer (w : Life σ) (answer : Answer) : Life σ :=
  { w.record [.returned answer] with conduct := .free }

/-! ### The owner -/

/-- A call for a start. -/
def start (w : Life σ) (fault : Option SystemFault) : Life σ :=
  let called := w.record [.called .start]
  match w.relay.spawn, fault with
  | .error e, _ => called.answer (.notStarted e)
  | .ok relay, some fault =>
    { called with relay := { relay with joinable := false } }.answer (.notStarted (.noWorker fault))
  | .ok relay, none =>
    { called.record [.spawned] with relay := relay, conduct := .awaiting, stage := .binding }

/-- The end of a start. -/
def conclude (w : Life σ) (ready : Bool) : Life σ :=
  let (relay, result) := w.relay.conclude ready
  { w with relay := relay }.answer (.ofStart result)

/-- A call for a stop. -/
def stop (w : Life σ) : Life σ :=
  let called := w.record [.called .stop]
  match w.relay.takeWorker? with
  | none => called.answer (.stopped [])
  | some (_, relay) => { called with relay := relay, conduct := .asking }

/-- The owner lets go of the relay. -/
def drop (w : Life σ) : Life σ :=
  { w.record [.dropped] with conduct := if w.relay.isRunning then .dropping else .gone }

/-- The call that is under way goes on. -/
def proceed (w : Life σ) (remaining : Nat) : Life σ :=
  match w.conduct with
  | .free | .gone => w
  | .awaiting =>
    if w.flag Shared.running then w.conclude true else { w with conduct := .checking remaining }
  | .checking remaining =>
    if Start.attempt remaining false (w.flag Shared.terminated) = .again then
      { w with conduct := .awaiting }
    else { w with conduct := .abandoning }
  | .abandoning => w.conclude false
  | .asking =>
    if w.flag Shared.terminated then { w with conduct := .telling [] }
    else { w with conduct := .acknowledging }
  | .acknowledging =>
    if w.flag Shared.sentinel then { w with conduct := .telling [] }
    else { w with conduct := .telling [.sentinelTimeout w.timeouts.sentinelAck] }
  | .telling warnings =>
    { w with
      relay := w.relay.update Shared.clearRunning
      conduct := .joining [w.timeouts.join, w.timeouts.joinRetry] warnings }
  | .joining [] warnings =>
    w.answer (.stopped (warnings ++ [.joinTimeout (w.timeouts.join + w.timeouts.joinRetry)]))
  | .joining (_ :: spans) warnings =>
    if w.flag Shared.terminated then w.answer (.stopped warnings)
    else { w with conduct := .joining spans warnings }
  | .dropping => { w with relay := w.relay.update Shared.abandon, conduct := .gone }

/-! ### The worker -/

/-- The worker listens on a port, or it cannot listen. -/
def bind (w : Life σ) (port : Option UInt16) : Life σ :=
  match w.stage, port with
  | .binding, some port => { w with stage := .bound port }
  | .binding, none => { w with stage := .leaving }
  | _, _ => w

/-- The worker tells where it listens, unless the owner gave up on it. -/
def publish (w : Life σ) : Life σ :=
  match w.stage, w.relay.shared with
  | .bound port, some shared =>
    let (told, welcome) := shared.publish port
    { w with
      relay := { w.relay with shared := some told }
      stage := if welcome then .serving else .leaving }
  | _, _ => w

/-- The worker completes a turn of its loop. -/
def turn (sink : Sink σ) (w : Life σ) (t : Worker.Turn) : Life σ :=
  let loop := (Worker.turn w.timeouts sink w.loop t).1
  { w with
    loop := loop
    relay := w.relay.update loop.signal
    stage := if loop.ending.isSome then .leaving else .serving }

/-- The worker begins a turn of its loop, and completes it if the deadline is reached. -/
def look (sink : Sink σ) (w : Life σ) (now : Nat) : Life σ :=
  match w.stage with
  | .serving =>
    let running := w.flag Shared.running
    match (Worker.plan w.timeouts running now w.loop.deadline).wait with
    | some _ => { w with stage := .waiting running now, polls := w.polls + 1 }
    | none => w.turn sink ⟨running, now, .idle⟩
  | _ => w

/-- The wait for a message is over, and the worker completes its turn. -/
def take (sink : Sink σ) (w : Life σ) (polled : Worker.Polled) : Life σ :=
  match w.stage with
  | .waiting running now => w.turn sink ⟨running, now, polled⟩
  | _ => w

/-- The worker breaks down, whatever it was doing. -/
def collapse (w : Life σ) : Life σ :=
  match w.stage with
  | .absent | .ended => w
  | _ => { w with stage := .leaving }

/-- The worker ends. -/
def terminate (w : Life σ) : Life σ :=
  match w.stage with
  | .leaving => { w with stage := .ended, relay := w.relay.update Shared.terminate }
  | _ => w

/-! ### Both -/

/-- The owner makes a call, if no other one is under way. -/
def whenFree (w : Life σ) (call : Life σ → Life σ) : Life σ :=
  match w.conduct with
  | .free => call w
  | _ => w

/-- One side takes a step. A step that is not its turn leaves all as it is. -/
def step (sink : Sink σ) (w : Life σ) : Action → Life σ
  | .start fault => w.whenFree (·.start fault)
  | .stop => w.whenFree stop
  | .isRunning =>
    w.whenFree fun w => (w.record [.called .isRunning]).answer (.running w.relay.isRunning)
  | .port => w.whenFree fun w => (w.record [.called .port]).answer (.port w.relay.port)
  | .drop => w.whenFree drop
  | .proceed remaining => w.proceed remaining
  | .bind port => w.bind port
  | .publish => w.publish
  | .look now => w.look sink now
  | .take polled => w.take sink polled
  | .collapse => w.collapse
  | .terminate => w.terminate

/-- The two sides take steps one after another. -/
def run (sink : Sink σ) (w : Life σ) (schedule : List Action) : Life σ :=
  schedule.foldl (step sink) w

end Life

end LogRelay
