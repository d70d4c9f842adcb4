import LogRelay.Worker.Loop

/-!
# The receive loop in virtual time

The clock moves only while the loop waits for a message and while its sink works. The surroundings
decide what each wait gives, how long waits and calls of the sink take, and during which turn the
running flag is cleared; a cleared flag stays cleared.
-/

namespace LogRelay.Worker

/-- Whether what a wait gives makes the loop call its sink. -/
def Polled.callsSink : Polled → Bool
  | .message payload =>
    match Envelope.decode payload with
    | .ok (.record _) => true
    | _ => false
  | .idle | .closed => false

/-- What the surroundings decide about one turn. -/
structure Pace where
  /-- What the wait gives, if the turn waits. -/
  polled : Polled
  /-- How long the wait takes, if the turn waits. -/
  waited : Nat
  /-- How long the sink takes, if it is called. -/
  worked : Nat
  /-- Whether the running flag is cleared after the turn looked at it and before the next one
  does. -/
  clears : Bool
deriving DecidableEq, Repr

/-- A wait for a message. -/
structure Wait where
  /-- When it began. -/
  start : Nat
  /-- How long it was to last at most. -/
  limit : Nat
  /-- What it gave. -/
  polled : Polled
deriving DecidableEq, Repr

/-- The loop with its clock, between two turns. -/
structure Timed (σ : Type) where
  /-- The loop. -/
  loop : State σ
  /-- The clock. -/
  now : Nat
  /-- The running flag. -/
  running : Bool
  /-- The waits so far, in order. -/
  waits : List Wait := []
  /-- The reports so far, in order. -/
  events : List Event := []

namespace Timed

variable {σ : Type}

/-- The loop before its first turn, with a sink in the given state. -/
def start (sink : σ) (now : Nat) (running : Bool) : Timed σ where
  loop := { sink := sink }
  now := now
  running := running

/-- What the next turn decides before it waits. -/
def plan (timeouts : Timeouts) (s : Timed σ) : Plan :=
  Worker.plan timeouts s.running s.now s.loop.deadline

/-- How long the next turn waits, if it waits. -/
def wait? (timeouts : Timeouts) (s : Timed σ) : Option Nat :=
  match s.loop.ending with
  | none => (s.plan timeouts).wait
  | some _ => none

/-- One turn. -/
def step (timeouts : Timeouts) (sink : Sink σ) (s : Timed σ) (p : Pace) : Timed σ :=
  let (loop, events) := turn timeouts sink s.loop ⟨s.running, s.now, p.polled⟩
  let after := { s with
    loop := loop
    running := s.running && !p.clears
    events := s.events ++ events }
  match s.wait? timeouts with
  | none => after
  | some limit =>
    { after with
      now := s.now + p.waited + (if p.polled.callsSink then p.worked else 0)
      waits := s.waits ++ [⟨s.now, limit, p.polled⟩] }

/-- The loop after a number of turns. -/
def after (timeouts : Timeouts) (sink : Sink σ) (s : Timed σ) (paces : Nat → Pace) : Nat → Timed σ
  | 0 => s
  | n + 1 => (s.after timeouts sink paces n).step timeouts sink (paces n)

end Timed

end LogRelay.Worker
