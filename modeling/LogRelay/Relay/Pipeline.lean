import LogRelay.Sink.Memory
import LogRelay.Wire.Connection
import LogRelay.Wire.Dispatch
import LogRelay.Wire.Queue
import LogRelay.Worker.Loop

/-!
# From a writer to a sink

One writer makes calls, its connection carries the bytes, the reader at the other end splits them
into messages, the queue holds these, and the worker of a running relay hands the records to a sink
that keeps them. The parts take steps in any order; a part that cannot take its step leaves all as
it is. Once the worker has ended, the connection may break under the writer.
-/

namespace LogRelay

/-- A writer, its connection, the queue and the worker. -/
structure Pipeline where
  /-- The calls that the writer will make, in order. -/
  pending : List Dispatch
  /-- The calls that the writer made, in order, each with its result. -/
  made : List (Dispatch × SendResult) := []
  /-- All bytes that were written. -/
  written : List UInt8 := []
  /-- The connection. -/
  connection : Wire.Connection := {}
  /-- The queue. -/
  queue : Wire.Queue (List UInt8)
  /-- The loop of the worker. -/
  loop : Worker.State Memory := { sink := {} }

namespace Pipeline

/-- One step of one part. -/
inductive Action where
  /-- The writer makes its next call. -/
  | call
  /-- The next call of the writer fails, because the connection is broken. -/
  | lose (fault : SystemFault)
  /-- Bytes arrive at the reader. -/
  | arrive (count : Nat)
  /-- The reader works on the bytes it has. -/
  | advance
  /-- The message that the reader holds enters the queue. -/
  | push
  /-- The worker takes a turn and gets a message from the queue. -/
  | take (now : Nat)
  /-- The worker takes a turn and gets nothing in time. -/
  | idle (now : Nat)
deriving DecidableEq, Repr

/-- The pipeline of a relay with a queue of the given depth, before any call. -/
def start (depth : Nat) (calls : List Dispatch) : Pipeline where
  pending := calls
  queue := .ofDepth depth

/-- The writer makes its next call. -/
def call (s : Pipeline) : Pipeline :=
  match s.pending with
  | [] => s
  | d :: rest =>
    let bytes := (Transmission.ofDispatches [d]).bytes
    { s with
      pending := rest
      made := s.made ++ [(d, d.send.1)]
      written := s.written ++ bytes
      connection := s.connection.write bytes }

/-- The next call of the writer fails on the broken connection, unless it would not write anyway. -/
def lose (s : Pipeline) (fault : SystemFault) : Pipeline :=
  match s.loop.ending, s.pending with
  | some _, d :: rest =>
    match d.send with
    | (.sent, _) =>
      { s with
        pending := rest
        made := s.made ++ [(d, .refused (.send fault))] }
    | _ => s
  | _, _ => s

/-- The message that the reader holds enters the queue, if there is room. -/
def push (s : Pipeline) : Pipeline :=
  match s.connection.held with
  | none => s
  | some payload =>
    match s.queue.push? payload with
    | none => s
    | some queue => { s with queue := queue, connection := { s.connection with held := none } }

/-- The worker takes a turn that sees the running flag set. -/
def turn (timeouts : Timeouts) (s : Pipeline) (now : Nat) (polled : Worker.Polled) : Pipeline :=
  { s with loop := (Worker.turn timeouts Sink.memory s.loop ⟨true, now, polled⟩).1 }

/-- The worker takes a turn and gets a message from the queue. -/
def take (timeouts : Timeouts) (s : Pipeline) (now : Nat) : Pipeline :=
  match s.loop.ending, s.queue.pop? with
  | none, some (payload, queue) => { s with queue := queue }.turn timeouts now (.message payload)
  | _, _ => s

/-- One part takes a step. -/
def step (timeouts : Timeouts) (s : Pipeline) : Action → Pipeline
  | .call => s.call
  | .lose fault => s.lose fault
  | .arrive count => { s with connection := s.connection.arrive count }
  | .advance => { s with connection := s.connection.advance }
  | .push => s.push
  | .take now => s.take timeouts now
  | .idle now => s.turn timeouts now .idle

/-- The parts take steps one after another. -/
def run (timeouts : Timeouts) (s : Pipeline) (schedule : List Action) : Pipeline :=
  schedule.foldl (step timeouts) s

end Pipeline

end LogRelay
