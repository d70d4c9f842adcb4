import LogRelay.Relay.Start
import LogRelay.Relay.Stopping
import LogRelay.Session.World
import LogRelay.Wire.Puller

/-!
# Running a script

The steps of a session, each with what it gives and what is observed meanwhile.
-/

namespace LogRelay.Session

namespace World

export Wire (droppedEvent)

/-- The report of a connection that listens. -/
def boundEvent (setup : Setup) : Event :=
  ⟨.debug, .transport, "Log puller bound",
    [("address", .plain (Address.socket setup.config.host setup.boundPort)),
      ("hwm", .uint setup.config.depth)]⟩

/-- The report of a worker that cannot listen. -/
def unboundEvent (setup : Setup) (fault : SystemFault) : Event :=
  ⟨.error, .worker, "Unable to bind the log puller",
    [("error", .plain (TransportError.bind setup.config.address fault).message)]⟩

/-- The report of a start that failed. -/
def failedEvent (relay : Relay) : Event :=
  .server .error "Log server failed to start"
    [relay.addressValue, ("timeout", .plain relay.config.timeouts.startup.display)]

/-- The new worker listens and waits for messages, or it cannot listen and ends. -/
def launch (w : World) : World :=
  let config := w.setup.config
  match w.setup.network.listenFault? w.setup.taken config.host config.port with
  | some fault => (w.report [unboundEvent w.setup fault]).terminate w.now
  | none =>
    { w.report [boundEvent w.setup] with
      relay := w.relay.update fun s => (s.publish w.setup.boundPort).1
      phase := .polling w.now }

/-- When the worker set the running flag, if it did so on its launch at the present moment. -/
def readyAt (w : World) : Option Nat :=
  if (w.relay.shared.map Shared.running).getD false then some w.now else none

/-- Starts the relay. -/
def start (w : World) : World × Result :=
  match w.relay.spawn with
  | .error e => (w, .notStarted e)
  | .ok relay =>
    let starting := Event.server .info "Log server starting..." [w.relay.addressValue]
    let launched := { w.report [starting] with relay := relay }.launch
    let wait := Start.waitReady (w.now + w.timeouts.startup.nanos) launched.readyAt
      launched.terminatedAt w.now
    let (relay, result) := launched.relay.conclude wait.signalled
    let after := { launched with relay := relay, now := wait.endsAt }
    match result with
    | .ok _ =>
      (after.report [.server .info "Log server started" [relay.addressValue]], .done)
    | .error e => (after.report [failedEvent relay], .notStarted e)

/-- Whether the worker listens. -/
def listening (w : World) : Bool :=
  match w.phase with
  | .absent | .ended => false
  | .polling _ | .draining _ | .waiting _ _ => true

/-- The connection through which a stop sends the sentinel. -/
def line (w : World) : Stop.Line where
  connect port :=
    w.setup.network.connect w.listening w.relay.connectHost port w.timeouts.sentinelAck

/-- Sends the sentinel to the worker, unless it has ended. -/
def pushSentinel (w : World) (shared : Shared) : World :=
  let request := w.line.request shared
  let told := w.report request.events
  match request with
  | .sent => told.deliver w.now [sentinel]
  | _ => told

/-- Stops a worker: the relay when its handle is given up, and what it shares with the worker. -/
def stopWorker (w : World) (shared : Shared) (taken : Relay) : World × Result :=
  let begun :=
    ({ w with relay := taken }.report [Stop.stoppingEvent taken]).pushSentinel shared
  let asked :=
    if shared.terminated then begun else begun.advance (w.now + w.timeouts.sentinelAck.nanos)
  let ack := Stop.acknowledgement w.timeouts w.now shared.terminated asked.sentinelAt
  let told :=
    { asked.report ((Stop.ackWarnings w.timeouts ack).map Stop.unacknowledgedEvent
        ++ [Stop.joiningEvent]) with
      clearedAt := some ack.endsAt
      relay := asked.relay.update Shared.clearRunning }
  let waited := told.advance (ack.endsAt + w.timeouts.join.nanos + w.timeouts.joinRetry.nanos)
  let course :=
    Stop.course w.timeouts w.now shared.terminated waited.sentinelAt waited.terminatedAt
  let stopped := if course.joined then [Stop.stoppedEvent waited.relay] else []
  let result := (w.relay.stop ⟨w.now, waited.sentinelAt, waited.terminatedAt, w.line, false⟩).2
  ({ waited.report (course.vain.map Stop.stillRunningEvent ++ stopped) with
      now := result.returnedAt },
    .stopped result.warnings)

/-- Stops the relay. -/
def stop (w : World) : World × Result :=
  match w.relay.takeWorker? with
  | none => (w.report [Stop.idleEvent w.relay], .stopped [])
  | some (shared, taken) => w.stopWorker shared taken

/-- What can be seen of the relay. -/
def info (w : World) : Info where
  address := w.relay.address
  connectAddress := w.relay.connectAddress
  level := w.relay.config.level
  depth := w.relay.config.depth
  description := w.relay.describe

/-- Whether a writer gets a connection to the relay. -/
def reachable (w : World) : Bool :=
  (w.setup.network.connectFault? w.listening w.relay.connectHost (.ofSeconds 1)).isNone

/-- Sends through a new connection. -/
def send (w : World) (dispatches : List Dispatch) : World × Result :=
  if w.reachable then
    let t := Transmission.ofDispatches dispatches
    (w.deliver w.now t.messages, .sent t.results)
  else (w, .noConnection)

/-- Sends chunks of bytes through a new connection. -/
def sendRaw (w : World) (chunks : List ByteArray) : World × Result :=
  if w.reachable then
    let (messages, fault) := Wire.receive (chunks.map fun chunk => chunk.data.toList)
    ((w.report (fault.toList.map droppedEvent)).deliver w.now messages, .answer true)
  else (w, .answer false)

/-- Lets go of the relay and sends through a connection made before. -/
def drop (w : World) (dispatches : List Dispatch) : World × Result :=
  if w.relay.isRunning then
    let messages := if w.reachable then (Transmission.ofDispatches dispatches).messages else []
    let report := Event.server .debug "Log server dropped while running, detaching its thread" []
    let dropped :=
      { w.report [report] with relay := w.relay.drop, clearedAt := some w.now, gone := true }
    ((dropped.deliver w.now messages).settle, .answer true)
  else ({ w with gone := true }, .answer true)

/-- Takes one step. -/
def step (w : World) : Step → World × Result
  | .start => w.start
  | .stop => w.stop
  | .info => (w, .seen w.info)
  | .send dispatches => w.send dispatches
  | .raw chunks => w.sendRaw chunks
  | .release => ({ w with releasedAt := some w.now }.settle, .answer true)
  | .releaseAfter delay => ({ w with releasedAt := some (w.now + delay.nanos) }, .done)
  | .drop dispatches => w.drop dispatches

/-- Takes one step and tells what was observed meanwhile. -/
def observe (w : World) (s : Step) : World × Observation :=
  let (after, result) := w.step s
  let before := w.loop.sink
  let taken := after.loop.sink
  (after,
    { result := result
      running := !after.gone && after.relay.isRunning
      messages := taken.messages.drop before.messages.length
      events := after.events.drop w.events.length ++ taken.events.drop before.events.length })

/-- Takes steps one after another and tells what was observed during each. -/
def play (w : World) : List Step → List Observation
  | [] => []
  | s :: rest =>
    let (after, observation) := w.observe s
    observation :: after.play rest

end World

/-- Plays a script from the start of a session. -/
def play (setup : Setup) (script : List Step) : List Observation :=
  (World.ofSetup setup).play script

end LogRelay.Session
