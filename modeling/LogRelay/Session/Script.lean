import LogRelay.Relay.Report
import LogRelay.Sink.Forward
import LogRelay.Wire.Dispatch
import LogRelay.Wire.Network

/-!
# Scripts

What a session does with one relay, step by step, and what each step gives. The relay of a session
has a sink that passes records on, or one that keeps messages and can be told by a message to fail
or to wait.
-/

namespace LogRelay.Session

/-- The sinks that a session can use. -/
inductive SinkMode where
  /-- Pass records on as events. -/
  | forward
  /-- Keep messages. -/
  | memory
deriving DecidableEq, Repr

/-- What a sink has taken. -/
structure Collected where
  /-- Messages kept, in order. -/
  messages : List String := []
  /-- Events passed on, in order. -/
  events : List Event := []
deriving DecidableEq, Repr

/-- What follows a word at the start of a text. -/
def after? (word s : String) : Option String :=
  if word.toList.isPrefixOf s.toList then some (String.ofList (s.toList.drop word.length)) else none

/-- What a message tells the sink that keeps messages to do. -/
def obey (message : String) : Outcome :=
  match after? "reject:" message, after? "panic:" message with
  | some reason, _ => .rejected reason
  | none, some reason => .panicked reason
  | none, none =>
    if message = "panic-static" then .panicked "static text"
    else if message = "panic-other" then .panicked ""
    else .taken

/-- The sink of a session. -/
def SinkMode.sink (mode : SinkMode) (level : Level) : Sink Collected where
  handle c r :=
    match mode with
    | .forward =>
      let (events, outcome) := (Sink.forward level).handle c.events r
      ({ c with events := events }, outcome)
    | .memory =>
      match r.text with
      | .error fault => (c, .panicked fault.message)
      | .ok message =>
        match obey message with
        | .taken => ({ c with messages := c.messages ++ [message] }, .taken)
        | failure => (c, failure)

/-- Whether a message makes the sink wait until it is released. -/
def SinkMode.waitsOn (mode : SinkMode) (payload : List UInt8) : Bool :=
  match mode, Envelope.decode payload with
  | .memory, .ok (.record r) =>
    match r.text with
    | .ok message => (after? "block:" message).isSome
    | .error _ => false
  | _, _ => false

/-- Where a session takes place. -/
structure Setup where
  /-- The way from writers to the relay. -/
  network : Network
  /-- The configuration of the relay. -/
  config : Config
  /-- Whether another listener holds the configured port of the loopback host. -/
  taken : Bool
  /-- The port that the network picks for port zero. -/
  picked : UInt16
  /-- The sink of the relay. -/
  mode : SinkMode

/-- The port on which a relay of this setup listens. -/
def Setup.boundPort (setup : Setup) : UInt16 :=
  if setup.config.port = 0 then setup.picked else setup.config.port

/-- One step of a session. -/
inductive Step where
  /-- Start the relay. -/
  | start
  /-- Stop the relay. -/
  | stop
  /-- Look at the relay. -/
  | info
  /-- Send through a new connection. -/
  | send (dispatches : List Dispatch)
  /-- Send chunks of bytes through a new connection. -/
  | raw (chunks : List ByteArray)
  /-- Release the waiting sink. -/
  | release
  /-- Release the waiting sink after a time. -/
  | releaseAfter (delay : Duration)
  /-- Let go of the relay and send through a connection made before. -/
  | drop (dispatches : List Dispatch)

/-- What can be seen of a relay. -/
structure Info where
  /-- The address on which it listens. -/
  address : String
  /-- The address through which local writers reach it. -/
  connectAddress : String
  /-- Its level. -/
  level : Level
  /-- Its queue depth. -/
  depth : Nat
  /-- The relay as a line of text. -/
  description : String

/-- What a step gives. -/
inductive Result where
  /-- Nothing but its end. -/
  | done
  /-- An answer to a question. -/
  | answer (yes : Bool)
  /-- The relay did not start. -/
  | notStarted (e : StartError)
  /-- The relay was stopped. -/
  | stopped (warnings : List StopWarning)
  /-- What can be seen of the relay. -/
  | seen (info : Info)
  /-- What became of what was sent. -/
  | sent (results : List SendResult)
  /-- No connection was made. -/
  | noConnection

/-- What is observed during one step. -/
structure Observation where
  /-- What the step gives. -/
  result : Result
  /-- Whether the relay runs after the step. -/
  running : Bool
  /-- The messages kept during the step. -/
  messages : List String
  /-- The events of the step, in order. -/
  events : List Event

/-- The events of one part of the program from a level on. -/
def Observation.eventsOf (o : Observation) (origin : Origin) (least : EventLevel) : List Event :=
  o.events.filter fun e => e.origin == origin && least.rank ≤ e.level.rank

end LogRelay.Session
