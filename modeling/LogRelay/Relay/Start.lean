import LogRelay.Relay.Flag

/-!
# Waiting for a worker to become ready

The controller waits for the running flag in short attempts, so that it notices a worker that ended
early. After an attempt without success it gives up if the time is over or the worker ended.
-/

namespace LogRelay.Start

/-- How long one attempt may take. -/
def checkInterval : Duration := .ofMillis 50

/-- How one attempt leaves the wait. -/
inductive Attempt where
  /-- The worker is ready. -/
  | ready
  /-- The time is over or the worker ended. -/
  | failed
  /-- The next attempt follows. -/
  | again
deriving DecidableEq, Repr

/-- How long the next attempt may take when `remaining` nanoseconds are left. -/
def attemptLimit (remaining : Nat) : Nat :=
  min remaining checkInterval.nanos

/-- How an attempt leaves the wait: `running` is the flag at its end, `terminated` the flag looked
at after that, and `remaining` the time that was left when it began. -/
def attempt (remaining : Nat) (running terminated : Bool) : Attempt :=
  if running then .ready
  else if remaining = 0 || terminated then .failed
  else .again

theorem attempt_eq_again {remaining : Nat} {running terminated : Bool}
    (h : attempt remaining running terminated = .again) : running = false ∧ 0 < remaining := by
  unfold attempt at h
  split at h
  · cases h
  · next hrunning =>
    split at h
    · cases h
    · next hleft =>
      simp only [Bool.or_eq_true, decide_eq_true_eq, not_or] at hleft
      exact ⟨Bool.not_eq_true _ ▸ hrunning, Nat.pos_of_ne_zero hleft.1⟩

/-- The wait for the worker from `now` until `deadline`, given the moments at which the worker sets
the running flag and at which it ends, if it ever does. -/
def waitReady (deadline : Nat) (runningAt terminatedAt : Option Nat) (now : Nat) : Flag.Wait :=
  let wait := Flag.await runningAt now (attemptLimit (deadline - now))
  let terminated := terminatedAt.any (· ≤ wait.endsAt)
  match _h : attempt (deadline - now) wait.signalled terminated with
  | .ready => ⟨true, wait.endsAt⟩
  | .failed => ⟨false, wait.endsAt⟩
  | .again => waitReady deadline runningAt terminatedAt wait.endsAt
termination_by deadline - now
decreasing_by
  obtain ⟨hrunning, hleft⟩ := attempt_eq_again _h
  have hend : (Flag.await runningAt now (attemptLimit (deadline - now))).endsAt =
      now + attemptLimit (deadline - now) := Flag.endsAt_of_not_signalled hrunning
  have hlimit : 0 < attemptLimit (deadline - now) := Nat.lt_min.mpr ⟨hleft, by decide⟩
  omega

end LogRelay.Start
