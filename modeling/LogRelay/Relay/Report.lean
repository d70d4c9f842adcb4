import LogRelay.Config
import LogRelay.Wire.Fault

/-!
# Reports of starting and stopping

Why a relay does not start, and what was not as it should be when it was stopped.
-/

namespace LogRelay

/-- Why a relay does not start. -/
inductive StartError where
  /-- The configuration is refused. -/
  | invalidConfig (fault : ConfigFault)
  /-- The relay was started before. -/
  | alreadyStarted
  /-- The worker did not listen in time. -/
  | startupTimeout (limit : Duration)
  /-- There is no worker. -/
  | noWorker (fault : SystemFault)
deriving DecidableEq, Repr

namespace StartError

/-- The text of the report. -/
def message : StartError → String
  | .invalidConfig fault => "Invalid configuration: " ++ fault.message
  | .alreadyStarted => "Log server already started"
  | .startupTimeout limit => "Log server did not become ready within " ++ limit.display
  | .noWorker fault => "Failed to spawn the log server thread: " ++ fault.message

/-- The fault of the system behind an error, if there is one. -/
def fault? : StartError → Option SystemFault
  | .noWorker fault => some fault
  | .invalidConfig _ | .alreadyStarted | .startupTimeout _ => none

end StartError

/-- What was not as it should be when a relay was stopped. -/
inductive StopWarning where
  /-- The worker did not read the sentinel in time. -/
  | sentinelTimeout (limit : Duration)
  /-- The worker could not be joined in time. -/
  | joinTimeout (limit : Duration)
deriving DecidableEq, Repr

/-- The text of the report. -/
def StopWarning.message : StopWarning → String
  | .sentinelTimeout limit =>
    "The stop sentinel was not acknowledged within " ++ limit.display
  | .joinTimeout limit => "The log server thread was still running after " ++ limit.display

end LogRelay
