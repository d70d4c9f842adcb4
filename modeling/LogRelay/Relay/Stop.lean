import LogRelay.Relay.Flag
import LogRelay.Relay.Report

/-!
# The course of a stop

A stop waits for the worker to receive the sentinel, then tells it to end and waits for that in two
attempts. When each wait ends, and what is reported, follows from the moments at which the worker
receives the sentinel and at which it ends, if it ever does. The clock counts nanoseconds.
-/

namespace LogRelay.Stop

/-- The course of a stop. -/
structure Course where
  /-- When the worker was told to end. -/
  clearedAt : Nat
  /-- The attempts to join the worker that were in vain. -/
  vain : List Duration
  /-- Whether the worker was joined. -/
  joined : Bool
  /-- When the stop returned. -/
  returnedAt : Nat
  /-- What is reported. -/
  warnings : List StopWarning
deriving DecidableEq, Repr

/-- The wait for the sentinel, which a worker that ended already does not need. -/
def acknowledgement (timeouts : Timeouts) (start : Nat) (ended : Bool) (sentinelAt : Option Nat) :
    Flag.Wait :=
  if ended then ⟨true, start⟩ else Flag.await sentinelAt start timeouts.sentinelAck.nanos

/-- What is reported about the wait for the sentinel. -/
def ackWarnings (timeouts : Timeouts) (ack : Flag.Wait) : List StopWarning :=
  if ack.signalled then [] else [.sentinelTimeout timeouts.sentinelAck]

/-- The course of a stop that begins at `start`. `ended` says whether the worker had ended
by then. -/
def course (timeouts : Timeouts) (start : Nat) (ended : Bool)
    (sentinelAt terminatedAt : Option Nat) : Course :=
  let ack := acknowledgement timeouts start ended sentinelAt
  let first := Flag.await terminatedAt ack.endsAt timeouts.join.nanos
  let second := Flag.await terminatedAt first.endsAt timeouts.joinRetry.nanos
  if first.signalled then
    ⟨ack.endsAt, [], true, first.endsAt, ackWarnings timeouts ack⟩
  else if second.signalled then
    ⟨ack.endsAt, [timeouts.join], true, second.endsAt, ackWarnings timeouts ack⟩
  else
    ⟨ack.endsAt, [timeouts.join, timeouts.joinRetry], false, second.endsAt,
      ackWarnings timeouts ack ++ [.joinTimeout (timeouts.join + timeouts.joinRetry)]⟩

end LogRelay.Stop
