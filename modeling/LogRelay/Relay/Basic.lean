import LogRelay.Relay.Report
import LogRelay.Relay.Shared
import LogRelay.Text.Quote

/-!
# The life of a relay

A relay is started at most once. A start that passes the check of the configuration creates the
state shared with the worker, and that state stays for good; the handle of the worker is given up by
the first stop.
-/

namespace LogRelay

/-- A relay as its owner holds it. -/
structure Relay where
  /-- The configuration. -/
  config : Config
  /-- The state shared with the worker, once there is a worker. -/
  shared : Option Shared := none
  /-- Whether the handle of the worker is still held. -/
  joinable : Bool := false

namespace Relay

/-- The port on which the relay listens, or else the configured one. -/
def port (r : Relay) : UInt16 :=
  (r.shared.bind Shared.port?).getD r.config.port

/-- The address on which the relay listens. -/
def address (r : Relay) : String :=
  Address.tcp r.config.host r.port

/-- The host through which a local writer reaches the relay. -/
def connectHost (r : Relay) : String :=
  Address.connectHost r.config.host

/-- The address through which a local writer reaches the relay. -/
def connectAddress (r : Relay) : String :=
  Address.tcp r.connectHost r.port

/-- Whether the relay has a worker that did not end. -/
def isRunning (r : Relay) : Bool :=
  r.joinable && (r.shared.map fun s => !s.terminated).getD false

/-- Changes the state shared with the worker, if there is one. -/
def update (r : Relay) (change : Shared → Shared) : Relay :=
  { r with shared := r.shared.map change }

/-- The first half of a start: checks that the relay may start and creates a worker. -/
def spawn (r : Relay) : Except StartError Relay :=
  match r.shared, r.config.validate with
  | some _, _ => .error .alreadyStarted
  | none, .error fault => .error (.invalidConfig fault)
  | none, .ok _ => .ok { r with shared := some {}, joinable := true }

/-- The second half of a start: gives up on a worker that is not ready. -/
def conclude (r : Relay) (ready : Bool) : Relay × Except StartError Unit :=
  if ready then (r, .ok ())
  else (r.update Shared.abandon, .error (.startupTimeout r.config.timeouts.startup))

/-- The start of a stop: gives up the handle of the worker, if it is still held. -/
def takeWorker? (r : Relay) : Option (Shared × Relay) :=
  match r.shared, r.joinable with
  | some shared, true => some (shared, { r with joinable := false })
  | _, _ => none

/-- What is left when the owner lets go of the relay: a worker that was never stopped is told to
end. -/
def drop (r : Relay) : Relay :=
  if r.isRunning then r.update Shared.abandon else r

/-- A relay as a line of text. -/
def describe (r : Relay) : String :=
  "LogServer \x7b address: " ++ Text.quote r.address ++ ", log_level: " ++ r.config.level.title
    ++ ", running: " ++ (if r.isRunning then "true" else "false") ++ ", .. \x7d"

section Lemmas

variable {r : Relay} {shared : Shared}

@[simp]
theorem joinable_update (r : Relay) (change : Shared → Shared) :
    (r.update change).joinable = r.joinable :=
  rfl

@[simp]
theorem shared_update (r : Relay) (change : Shared → Shared) :
    (r.update change).shared = r.shared.map change :=
  rfl

/-- A start creates a worker only if it is the first one that passes the check. -/
theorem spawn_eq_ok {started : Relay} (h : r.spawn = .ok started) :
    r.shared = none ∧ r.config.validate = .ok () ∧
      started = { r with shared := some {}, joinable := true } := by
  unfold spawn at h
  split at h
  · cases h
  · cases h
  · next hshared hvalid =>
      cases h
      exact ⟨hshared, hvalid, rfl⟩

/-- A stop finds the handle of a worker only if it is still held. -/
theorem takeWorker?_eq_some {taken : Relay} (h : r.takeWorker? = some (shared, taken)) :
    r.joinable = true ∧ taken = { r with joinable := false } := by
  unfold takeWorker? at h
  split at h
  · next hjoinable =>
      cases h
      exact ⟨hjoinable, rfl⟩
  · cases h

theorem takeWorker?_of_joinable (hshared : r.shared = some shared) (hheld : r.joinable = true) :
    r.takeWorker? = some (shared, { r with joinable := false }) := by
  unfold takeWorker?
  rw [hshared, hheld]

theorem takeWorker?_of_not_joinable (h : r.joinable = false) : r.takeWorker? = none := by
  unfold takeWorker?
  rw [h]
  split
  · next hjoinable => cases hjoinable
  · rfl

theorem isRunning_of_not_joinable (h : r.joinable = false) : r.isRunning = false := by
  simp [isRunning, h]

end Lemmas

end Relay

end LogRelay
