import LogRelay.Event
import LogRelay.Wire.Connection
import LogRelay.Wire.Queue

/-!
# Many connections, one queue

A puller accepts any number of connections. Each has a reader of its own, which ends when the
connection does or when it meets a fault; all readers push their messages onto one queue, from which
the owner takes one at a time. The parts take steps in any order; a part that cannot take its step
leaves all as it is. A puller that its owner lets go of does nothing any more.
-/

namespace LogRelay.Wire

/-- How far the reader of a connection is. -/
inductive Progress where
  /-- It reads. -/
  | reading
  /-- It has read all. -/
  | done
  /-- It gave up. -/
  | failed (fault : SystemFault)
deriving DecidableEq, Repr

/-- An accepted connection. -/
structure Inlet where
  /-- All bytes that were written. -/
  written : List UInt8 := []
  /-- Whether the writer closed the connection. -/
  closed : Bool := false
  /-- The connection and its reader. -/
  connection : Connection := {}
  /-- How far the reader is. -/
  progress : Progress := .reading
deriving DecidableEq, Repr

namespace Inlet

/-- A step that concerns one connection only. -/
inductive Action where
  /-- More bytes are written. -/
  | write (bytes : List UInt8)
  /-- The writer closes the connection. -/
  | close
  /-- Bytes arrive at the reader. -/
  | arrive (count : Nat)
  /-- The reader works on the bytes it has. -/
  | advance
  /-- The reader ends. -/
  | finish
deriving DecidableEq, Repr

/-- More bytes are written, unless the connection is closed. -/
def write (c : Inlet) (bytes : List UInt8) : Inlet :=
  if c.closed then c
  else { c with written := c.written ++ bytes, connection := c.connection.write bytes }

/-- The reader does something, unless it has ended. -/
def read (c : Inlet) (change : Connection → Connection) : Inlet :=
  match c.progress with
  | .reading => { c with connection := change c.connection }
  | .done | .failed _ => c

/-- Whether the reader comes to its end: it has handed on every message that is complete, and it met
a length above the limit, or no more bytes will come. -/
def isOver (c : Inlet) : Bool :=
  c.connection.held.isNone && c.connection.splitter.advance?.isNone &&
    (c.connection.splitter.stage == .refused || c.closed && c.connection.incoming.isEmpty)

/-- The reader ends, if it comes to its end. -/
def finish (c : Inlet) : Inlet :=
  if c.isOver then
    match c.connection.splitter.endFault? with
    | none => { c with progress := .done }
    | some fault => { c with progress := .failed fault }
  else c

/-- One step of one connection. -/
def step (c : Inlet) : Action → Inlet
  | .write bytes => c.write bytes
  | .close => { c with closed := true }
  | .arrive count => c.read (·.arrive count)
  | .advance => c.read Connection.advance
  | .finish => c.finish

/-- The reader no longer holds a message. -/
def release (c : Inlet) : Inlet :=
  { c with connection := { c.connection with held := none } }

end Inlet

/-- The report of a connection that was dropped for a fault. -/
def droppedEvent (fault : SystemFault) : Event :=
  ⟨.warn, .transport, "Dropping log connection after a framing error",
    [("error", .plain fault.message)]⟩

/-- A puller. Messages are kept with the number of their connection, to tell them apart. -/
structure Puller where
  /-- The accepted connections, numbered in order. -/
  inlets : List Inlet := []
  /-- The queue. -/
  queue : Queue (Nat × List UInt8)
  /-- The messages that the owner took, in order. -/
  popped : List (Nat × List UInt8) := []
  /-- Whether the owner let go of the puller. -/
  dropped : Bool := false

namespace Puller

/-- One step of one part. -/
inductive Action where
  /-- A connection is accepted. -/
  | accept
  /-- A connection takes a step by itself. -/
  | inlet (i : Nat) (action : Inlet.Action)
  /-- The message that the reader of a connection holds enters the queue. -/
  | push (i : Nat)
  /-- The owner takes a message from the queue, or gets nothing in time. -/
  | poll
  /-- The owner lets go of the puller. -/
  | drop
deriving DecidableEq, Repr

/-- A puller with a queue of the given depth. -/
def start (depth : Nat) : Puller where
  queue := .ofDepth depth

/-- The message that the reader of a connection holds enters the queue, if there is room. -/
def push (s : Puller) (i : Nat) : Puller :=
  match s.inlets[i]?.bind (·.connection.held) with
  | none => s
  | some payload =>
    match s.queue.push? (i, payload) with
    | none => s
    | some queue => { s with inlets := s.inlets.modify i Inlet.release, queue := queue }

/-- The owner takes a message from the queue, if there is one. -/
def poll (s : Puller) : Puller :=
  match s.queue.pop? with
  | none => s
  | some (message, queue) => { s with queue := queue, popped := s.popped ++ [message] }

/-- One part takes a step. -/
def step (s : Puller) (action : Action) : Puller :=
  if s.dropped then s
  else
    match action with
    | .accept => { s with inlets := s.inlets ++ [{}] }
    | .inlet i action => { s with inlets := s.inlets.modify i (·.step action) }
    | .push i => s.push i
    | .poll => s.poll
    | .drop => { s with dropped := true }

/-- The parts take steps one after another. -/
def run (s : Puller) (actions : List Action) : Puller :=
  actions.foldl step s

/-- What the reader of a connection has given up for. -/
def fault? (s : Puller) (i : Nat) : Option SystemFault :=
  match s.inlets[i]?.map Inlet.progress with
  | some (.failed fault) => some fault
  | _ => none

/-- What is reported about a connection while the parts take steps: a warning when its reader
gives up. -/
def warnings (i : Nat) (s : Puller) : List Action → List Event
  | [] => []
  | action :: rest =>
    let next := s.step action
    let given := if s.fault? i = none then next.fault? i else none
    given.toList.map droppedEvent ++ next.warnings i rest

end Puller

end LogRelay.Wire
