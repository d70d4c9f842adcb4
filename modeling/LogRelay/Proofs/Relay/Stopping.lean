import LogRelay.Proofs.Config.Bounds
import LogRelay.Relay.Stopping

/-!
# What a stop reports

The moments at which the worker receives the sentinel and at which it ends decide what a stop
reports, and nothing else does: each of its waits is in vain exactly if the flag it waits for is set
later than the wait can last. So a stop is bounded by the sum of its waits, and it leaves the relay
stopped for good.
-/

namespace LogRelay

namespace Timeouts

/-- Accepted waits are so short that their sum is exact. -/
theorem nanos_maxStop {config : Config} (hvalid : config.validate = .ok ()) :
    config.timeouts.maxStop.nanos = config.timeouts.sentinelAck.nanos +
      config.timeouts.join.nanos + config.timeouts.joinRetry.nanos := by
  have hle (timeout : Timeout) : (config.timeouts.get timeout).nanos ≤ Config.maxTimeout.nanos :=
    (Config.nanos_of_validate hvalid timeout).2
  have hack : config.timeouts.sentinelAck.nanos ≤ _ := hle .sentinelAck
  have hjoin : config.timeouts.join.nanos ≤ _ := hle .join
  have hretry : config.timeouts.joinRetry.nanos ≤ _ := hle .joinRetry
  have hlongest : 3 * Config.maxTimeout.nanos ≤ Duration.longest.nanos := by decide
  simp only [maxStop, Duration.nanos_add]
  omega

/-- The two attempts to join a worker take exactly as long as their bounds say. -/
theorem join_add_joinRetry {config : Config} (hvalid : config.validate = .ok ()) :
    config.timeouts.join + config.timeouts.joinRetry =
      ⟨config.timeouts.join.nanos + config.timeouts.joinRetry.nanos⟩ := by
  have hsum := nanos_maxStop hvalid
  have hle : config.timeouts.maxStop.nanos ≤ Duration.longest.nanos := Nat.min_le_right ..
  refine congrArg Duration.mk (Nat.min_eq_left ?_)
  omega

end Timeouts

namespace Stop

/-- The attempts to join the worker that are over before it ends, when it is told to end at a
moment. -/
def elapsed (timeouts : Timeouts) (cleared : Nat) (terminatedAt : Option Nat) : List Duration :=
  (if Flag.isSetBy terminatedAt (cleared + timeouts.join.nanos) then [] else [timeouts.join]) ++
    (if Flag.isSetBy terminatedAt (cleared + timeouts.join.nanos + timeouts.joinRetry.nanos) then []
      else [timeouts.joinRetry])

/-- An attempt to join the worker is in vain exactly if it is over before the worker ends. -/
theorem course_cases (timeouts : Timeouts) (start : Nat) (ended : Bool)
    (sentinelAt terminatedAt : Option Nat) :
    let ack := acknowledgement timeouts start ended sentinelAt
    let last := ack.endsAt + timeouts.join.nanos + timeouts.joinRetry.nanos
    let c := course timeouts start ended sentinelAt terminatedAt
    c.clearedAt = ack.endsAt ∧
      c.vain = elapsed timeouts ack.endsAt terminatedAt ∧
      c.joined = Flag.isSetBy terminatedAt last ∧
      c.warnings = ackWarnings timeouts ack ++
        (if Flag.isSetBy terminatedAt last then []
          else [.joinTimeout (timeouts.join + timeouts.joinRetry)]) ∧
      c.returnedAt ≤ last := by
  intro ack last c
  let first := Flag.await terminatedAt ack.endsAt timeouts.join.nanos
  let second := Flag.await terminatedAt first.endsAt timeouts.joinRetry.nanos
  have hfirst : first.signalled = Flag.isSetBy terminatedAt (ack.endsAt + timeouts.join.nanos) :=
    Flag.signalled_await ..
  have hfirstEnds : first.endsAt ≤ ack.endsAt + timeouts.join.nanos := Flag.endsAt_le
  cases hjoin : first.signalled with
  | true =>
    have hlast : Flag.isSetBy terminatedAt last = true :=
      Flag.isSetBy_mono (Nat.le_add_right _ _) (hfirst.symm.trans hjoin)
    have hcourse : c = ⟨ack.endsAt, [], true, first.endsAt, ackWarnings timeouts ack⟩ :=
      if_pos hjoin
    have helapsed : elapsed timeouts ack.endsAt terminatedAt = [] := by
      rw [elapsed, if_pos (hfirst.symm.trans hjoin), if_pos hlast]
      rfl
    rw [hcourse, helapsed, hlast]
    exact ⟨rfl, rfl, rfl, (List.append_nil _).symm, Nat.le_add_right_of_le hfirstEnds⟩
  | false =>
    have hends : first.endsAt = ack.endsAt + timeouts.join.nanos :=
      Flag.endsAt_of_not_signalled hjoin
    have hlast : first.endsAt + timeouts.joinRetry.nanos = last :=
      congrArg (· + timeouts.joinRetry.nanos) hends
    have hsecond : second.signalled = Flag.isSetBy terminatedAt last :=
      hlast ▸ Flag.signalled_await ..
    have hsecondEnds : second.endsAt ≤ last := hlast ▸ Flag.endsAt_le
    have hcourse : c = if second.signalled then
          ⟨ack.endsAt, [timeouts.join], true, second.endsAt, ackWarnings timeouts ack⟩
        else ⟨ack.endsAt, [timeouts.join, timeouts.joinRetry], false, second.endsAt,
          ackWarnings timeouts ack ++ [.joinTimeout (timeouts.join + timeouts.joinRetry)]⟩ :=
      if_neg (Bool.eq_false_iff.mp hjoin)
    have helapsed : elapsed timeouts ack.endsAt terminatedAt =
        [timeouts.join] ++ if Flag.isSetBy terminatedAt last then [] else [timeouts.joinRetry] := by
      rw [elapsed, if_neg (Bool.eq_false_iff.mp (hfirst.symm.trans hjoin))]
    rw [hcourse, helapsed, hsecond]
    cases Flag.isSetBy terminatedAt last with
    | true => exact ⟨rfl, rfl, rfl, (List.append_nil _).symm, hsecondEnds⟩
    | false => exact ⟨rfl, rfl, rfl, rfl, hsecondEnds⟩

/-- Whether an event reports an attempt to join the worker that was in vain. -/
def isStillRunningEvent (event : Event) : Bool :=
  event.message = "The logging server thread is still running..."

theorem filter_requestEvents (request : Request) :
    request.events.filter isStillRunningEvent = [] := by
  cases request <;> simp [Request.events, Event.server, isStillRunningEvent]

theorem filter_closingEvents (line : Line) (request : Request) :
    (line.closingEvents request).filter isStillRunningEvent = [] := by
  cases request with
  | sent =>
    simp only [Line.closingEvents]
    split <;> simp [unclosedEvent, Event.server, isStillRunningEvent]
  | spared | unaddressed | unconnected | unsent => rfl

theorem filter_ackWarnings (warnings : List StopWarning) :
    (warnings.map unacknowledgedEvent).filter isStillRunningEvent = [] := by
  simp [List.filter_eq_nil_iff, unacknowledgedEvent, Event.server, isStillRunningEvent]

theorem filter_stillRunning (limits : List Duration) :
    (limits.map stillRunningEvent).filter isStillRunningEvent = limits.map stillRunningEvent := by
  simp [List.filter_eq_self, stillRunningEvent, Event.server, isStillRunningEvent]

theorem request_eq_sent_iff {line : Line} {shared : Shared} :
    line.request shared = .sent ↔ shared.terminated = false ∧
      ∃ port, shared.port? = some port ∧ line.connect port = .ok () ∧ line.send = .ok () := by
  unfold Line.request
  cases hterminated : shared.terminated with
  | true => simp
  | false =>
    cases hport : shared.port? with
    | none => simp
    | some port =>
      cases hconnect : line.connect port with
      | error e => simp [hconnect]
      | ok _ => cases hsend : line.send <;> simp [hconnect]

theorem acknowledgement_of_ended (timeouts : Timeouts) (start : Nat) (sentinelAt : Option Nat) :
    acknowledgement timeouts start true sentinelAt = ⟨true, start⟩ :=
  rfl

theorem acknowledgement_of_running (timeouts : Timeouts) (start : Nat) (sentinelAt : Option Nat) :
    acknowledgement timeouts start false sentinelAt =
      Flag.await sentinelAt start timeouts.sentinelAck.nanos :=
  rfl

/-- The wait for the sentinel ends in time. -/
theorem endsAt_acknowledgement_le (timeouts : Timeouts) (start : Nat) (ended : Bool)
    (sentinelAt : Option Nat) :
    (acknowledgement timeouts start ended sentinelAt).endsAt ≤
      start + timeouts.sentinelAck.nanos := by
  cases ended with
  | true => exact Nat.le_add_right ..
  | false => exact Flag.endsAt_le

end Stop

namespace Relay

variable {relay : Relay} {shared : Shared}

/-- A stop without the handle of a worker does nothing and says so. -/
theorem stop_of_not_joinable (h : relay.joinable = false) (m : Stop.Setting) :
    relay.stop m = (relay, ⟨[], .spared, none, m.start, [Stop.idleEvent relay]⟩) := by
  unfold stop
  rw [takeWorker?_of_not_joinable h]

/-- What a stop of a relay with a worker does follows from the course of the stop. -/
theorem stop_cases (m : Stop.Setting) (hshared : relay.shared = some shared)
    (hheld : relay.joinable = true) :
    let timeouts := relay.config.timeouts
    let course := Stop.course timeouts m.start shared.terminated m.sentinelAt m.terminatedAt
    let result := (relay.stop m).2
    result.warnings = course.warnings ∧
      result.request = m.line.request shared ∧
      result.clearedAt = some course.clearedAt ∧
      result.returnedAt = course.returnedAt ∧
      result.events.filter Stop.isStillRunningEvent =
        course.vain.map Stop.stillRunningEvent ∧
      (relay.stop m).1 = { relay with
        shared := some (m.sharedAt shared course.returnedAt).clearRunning
        joinable := false } := by
  intro timeouts course result
  unfold result stop
  rw [takeWorker?_of_joinable hshared hheld]
  refine ⟨rfl, rfl, rfl, rfl, ?_, ?_⟩
  · have hlast (after : Relay) : (if course.joined then
        (if m.panicked then [Stop.panickedEvent] else []) ++ [Stop.stoppedEvent after]
        else []).filter Stop.isStillRunningEvent = [] := by
      cases course.joined <;> cases m.panicked <;>
        simp [Stop.panickedEvent, Stop.stoppedEvent, Event.server, Stop.isStillRunningEvent]
    simp only [List.filter_append, Stop.filter_requestEvents, Stop.filter_ackWarnings,
      Stop.filter_closingEvents, Stop.filter_stillRunning]
    rw [hlast]
    simp [Stop.stoppingEvent, Stop.joiningEvent, Event.server, Stop.isStillRunningEvent, course,
      timeouts]
  · simp only [update, hshared, Option.map_some]
    rfl

/-- What a stop of a relay with a worker reports, for every moment at which the worker receives the
sentinel and every moment at which it ends. `change` is anything that the worker does to the state
it shares after the stop. -/
theorem stop_reports (m : Stop.Setting) (hshared : relay.shared = some shared)
    (hheld : relay.joinable = true) (hvalid : relay.config.validate = .ok ())
    (hterminated : shared.terminated = Flag.isSetBy m.terminatedAt m.start) :
    let timeouts := relay.config.timeouts
    let ackEnd := m.start + timeouts.sentinelAck.nanos
    let acknowledged := Flag.isSetBy m.sentinelAt ackEnd
    let after := (relay.stop m).1
    let result := (relay.stop m).2
    ∃ cleared, result.clearedAt = some cleared ∧
      (shared.terminated = true → result.warnings = [] ∧ cleared = m.start) ∧
      (shared.terminated = false →
        (∀ moment, m.sentinelAt = some moment → moment ≤ ackEnd → cleared = max m.start moment) ∧
        (acknowledged = false → cleared = ackEnd) ∧
        result.warnings =
          (if acknowledged then [] else [.sentinelTimeout timeouts.sentinelAck]) ++
          (if Flag.isSetBy m.terminatedAt
              (cleared + timeouts.join.nanos + timeouts.joinRetry.nanos) then []
            else [.joinTimeout ⟨timeouts.join.nanos + timeouts.joinRetry.nanos⟩])) ∧
      (result.request = .sent ↔ shared.terminated = false ∧
        ∃ port, shared.port? = some port ∧ m.line.connect port = .ok () ∧ m.line.send = .ok ()) ∧
      result.events.filter Stop.isStillRunningEvent =
        (Stop.elapsed timeouts cleared m.terminatedAt).map Stop.stillRunningEvent ∧
      result.returnedAt ≤ m.start + timeouts.maxStop.nanos ∧
      (after.shared.map Shared.running = some false) ∧
      ∀ change later, (after.update change).isRunning = false ∧
        ((after.update change).stop later).1 = after.update change ∧
        ((after.update change).stop later).2.warnings = [] := by
  intro timeouts ackEnd acknowledged after result
  obtain ⟨hwarnings, hrequest, hcleared, hreturned, hevents, hafter⟩ := stop_cases m hshared hheld
  obtain ⟨hclearedAt, hvain, -, hreported, hlast⟩ :=
    Stop.course_cases timeouts m.start shared.terminated m.sentinelAt m.terminatedAt
  let ack := Stop.acknowledgement timeouts m.start shared.terminated m.sentinelAt
  have hackEnd : ack.endsAt ≤ ackEnd := Stop.endsAt_acknowledgement_le ..
  rw [Timeouts.join_add_joinRetry hvalid] at hreported
  refine ⟨ack.endsAt, ?cleared, ?ended, ?running, ?request, ?events, ?returned, ?told, ?later⟩
  case cleared => rw [← hclearedAt]; exact hcleared
  case ended =>
    intro hended
    have hack : ack = ⟨true, m.start⟩ := by rw [← Stop.acknowledgement_of_ended, ← hended]
    have hle : m.start ≤ ack.endsAt + timeouts.join.nanos + timeouts.joinRetry.nanos := by
      rw [hack, Nat.add_assoc]
      exact Nat.le_add_right ..
    have hset := Flag.isSetBy_mono hle (hterminated.symm.trans hended)
    refine ⟨?_, congrArg Flag.Wait.endsAt hack⟩
    rw [hwarnings, hreported, if_pos hset]
    simp [Stop.ackWarnings, hended, Stop.acknowledgement_of_ended]
  case running =>
    intro hrunning
    have hack : ack = Flag.await m.sentinelAt m.start timeouts.sentinelAck.nanos := by
      rw [← Stop.acknowledgement_of_running, ← hrunning]
    have hsignalled : ack.signalled = acknowledged := hack ▸ Flag.signalled_await ..
    refine ⟨fun moment hmoment hle => ?_, fun hlate => ?_, ?_⟩
    · rw [hack, hmoment, Flag.endsAt_of_le hle]
    · rw [hack]
      exact Flag.endsAt_of_not_signalled (hack ▸ hsignalled.trans hlate)
    · rw [hwarnings, hreported, ← hsignalled]
      rfl
  case request => rw [hrequest, Stop.request_eq_sent_iff]
  case events => rw [hevents, hvain]
  case returned =>
    calc result.returnedAt
      _ ≤ ack.endsAt + timeouts.join.nanos + timeouts.joinRetry.nanos := hreturned ▸ hlast
      _ ≤ ackEnd + timeouts.join.nanos + timeouts.joinRetry.nanos := by omega
      _ = m.start + timeouts.maxStop.nanos := by
        rw [Timeouts.nanos_maxStop hvalid]
        simp only [ackEnd, timeouts, Nat.add_assoc]
  case told =>
    rw [show after = _ from hafter]
    rfl
  case later =>
    intro change later
    have hgone : (after.update change).joinable = false := by
      rw [show after = _ from hafter]
      rfl
    refine ⟨isRunning_of_not_joinable hgone, ?_, ?_⟩ <;> rw [stop_of_not_joinable hgone]

/-- A worker that neither reads the sentinel nor ends costs a stop both of its warnings. -/
theorem stop_reports_stuck :
    let shared : Shared := { endpoint := .bound 4510, running := true }
    let relay : Relay := { config := .default 4510, shared := some shared, joinable := true }
    let m : Stop.Setting := ⟨100, none, none, ⟨fun _ => .ok (), .ok (), .ok ()⟩, false⟩
    let result := (relay.stop m).2
    relay.config.validate = .ok () ∧
      result.clearedAt = some 5000000100 ∧ result.request = .sent ∧
      result.warnings = [.sentinelTimeout (.ofSeconds 5), .joinTimeout (.ofSeconds 12)] ∧
      result.events.filter Stop.isStillRunningEvent =
        [Stop.stillRunningEvent (.ofSeconds 7), Stop.stillRunningEvent (.ofSeconds 5)] ∧
      result.returnedAt ≤ 17000000100 := by
  intro shared relay m result
  have hshared : relay.shared = some shared := rfl
  have hvalid : relay.config.validate = .ok () := Config.validate_default 4510
  have hack : 100 + relay.config.timeouts.sentinelAck.nanos = 5000000100 := by decide +kernel
  have hjoin : relay.config.timeouts.join.nanos + relay.config.timeouts.joinRetry.nanos =
      (Duration.ofSeconds 12).nanos := by decide +kernel
  have hbound : 100 + relay.config.timeouts.maxStop.nanos = 17000000100 := by decide +kernel
  obtain ⟨cleared, hcleared, -, hrunning, hsent, hevents, hreturned, -⟩ :=
    stop_reports m hshared rfl hvalid rfl
  obtain ⟨-, hlate, hwarnings⟩ := hrunning rfl
  rw [hlate rfl, hack] at hcleared
  rw [hjoin] at hwarnings
  exact ⟨hvalid, hcleared, hsent.mpr ⟨rfl, 4510, rfl, rfl, rfl⟩, hwarnings, hevents,
    Nat.le_trans hreturned (Nat.le_of_eq hbound)⟩

end Relay

end LogRelay
