/-!
# What a relay shares with its worker

Three flags and the endpoint. The worker publishes where it listens, which sets the running flag;
the controller may give up on the worker, and after that nothing is published any more.
-/

namespace LogRelay

/-- Where a worker listens. -/
inductive Endpoint where
  /-- The worker does not listen yet. -/
  | pending
  /-- The worker listens on a port. -/
  | bound (port : UInt16)
  /-- The controller gave up on the worker. -/
  | abandoned
deriving DecidableEq, Repr

/-- The state shared by a relay and its worker. -/
structure Shared where
  /-- Where the worker listens. -/
  endpoint : Endpoint := .pending
  /-- Set once the worker listens, cleared to make it stop. -/
  running : Bool := false
  /-- Set when the worker receives the sentinel. -/
  sentinel : Bool := false
  /-- Set when the worker ends. -/
  terminated : Bool := false
deriving DecidableEq, Repr, Inhabited

namespace Shared

/-- The worker listens on a port, unless the controller gave up on it; tells whether it
may go on. -/
def publish (s : Shared) (port : UInt16) : Shared × Bool :=
  match s.endpoint with
  | .abandoned => (s, false)
  | .pending | .bound _ => ({ s with endpoint := .bound port, running := true }, true)

/-- The controller gives up on the worker. -/
def abandon (s : Shared) : Shared :=
  { s with endpoint := .abandoned, running := false }

/-- The controller tells the worker to stop. -/
def clearRunning (s : Shared) : Shared :=
  { s with running := false }

/-- The worker received the sentinel. -/
def acknowledge (s : Shared) : Shared :=
  { s with sentinel := true }

/-- The worker ended. -/
def terminate (s : Shared) : Shared :=
  { s with terminated := true }

/-- The port on which the worker listens. -/
def port? (s : Shared) : Option UInt16 :=
  match s.endpoint with
  | .bound port => some port
  | .pending | .abandoned => none

end Shared

end LogRelay
