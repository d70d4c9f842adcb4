import LogRelay.Proofs.Config.Bounds
import LogRelay.Proofs.Worker.Forwarding
import LogRelay.Worker.Clock

/-!
# Draining

The first turn that sees the running flag cleared fixes the deadline of the loop, and nothing moves
it afterwards. From then on a wait begins before the deadline and is to end by it, and what the
waits give is handled as while the flag was set. So draining takes as long as it is given, unless
the sentinel arrives or nothing can come any more.
-/

namespace LogRelay.Worker

/-- The turn that a wait belongs to, had it seen the running flag set. -/
def Wait.whileRunning (wait : Wait) : Turn :=
  ⟨true, wait.start, wait.polled⟩

/-- The loop had it not been told to end. -/
def State.undrained {σ : Type} (s : State σ) : State σ :=
  { s with
    deadline := none
    ending := s.ending.filter (· ≠ .expired) }

/-- Whether an event is about draining and not about a message. -/
def isDrainingReport (timeouts : Timeouts) (event : Event) : Bool :=
  event = drainingEvent timeouts || event = expiredEvent

section React

variable {σ : Type} {sink : Sink σ} {s : State σ} {polled : Polled} {timeouts : Timeouts}

/-- What a wait gives is handled alike whatever the deadline is. -/
theorem react_deadline (deadline : Option Nat) :
    react sink { s with deadline := deadline } polled =
      ({ (react sink s polled).1 with deadline := deadline }, (react sink s polled).2) := by
  cases polled with
  | message payload =>
      rw [react, react]
      unfold handle
      dsimp only
      split <;> rfl
  | idle => rfl
  | closed => rfl

theorem ending_react (h : s.ending = none) :
    (react sink s polled).1.ending = polled.ending? := by
  cases hending : polled.ending? with
  | some ending => rw [react_of_ending hending]
  | none =>
      cases polled with
      | message payload =>
          have hpayload : payload ≠ LogRelay.sentinel := by
            rintro rfl
            simp at hending
          rw [react]
          unfold handle
          split
          · next hdecode => exact absurd (Envelope.decode_eq_sentinel_iff.mp hdecode) hpayload
          · exact h
          · exact h
      | idle => exact h
      | closed => cases hending

theorem ending?_ne_expired (polled : Polled) : polled.ending? ≠ some .expired := by
  cases polled with
  | message payload => simp [Polled.ending?]
  | idle => simp
  | closed => simp

theorem ending?_eq_sentinel_iff :
    polled.ending? = some .sentinel ↔ polled = .message LogRelay.sentinel := by
  cases polled with
  | message payload => simp [Polled.ending?]
  | idle => simp
  | closed => simp

theorem ending?_eq_closed_iff : polled.ending? = some .closed ↔ polled = .closed := by
  cases polled with
  | message payload => simp [Polled.ending?]
  | idle => simp
  | closed => simp

theorem payload?_eq_some_iff {payload : List UInt8} :
    polled.payload? = some payload ↔ polled = .message payload := by
  cases polled <;> simp [Polled.payload?]

theorem undrained_of_ne_expired (h : s.ending ≠ some .expired) :
    s.undrained = { s with deadline := none } := by
  have hending : s.ending.filter (· ≠ .expired) = s.ending := by
    cases hsome : s.ending with
    | none => rfl
    | some ending =>
        rw [hsome] at h
        exact Option.filter_some_pos (decide_eq_true fun heq => h (congrArg some heq))
  rw [State.undrained, hending]

theorem run_singleton (t : Turn) : run timeouts sink s [t] = turn timeouts sink s t := by
  simp [run]

theorem message_of_mem_react {event : Event} (h : event ∈ (react sink s polled).2) :
    event.message ∈ ["Received the sentinel to shutdown", "Failed to forward log record",
      "Dropping malformed log message", "Log receive queue closed unexpectedly"] := by
  cases polled with
  | message payload =>
      rw [react] at h
      unfold handle at h
      split at h
      · rw [List.mem_singleton.mp h]
        exact .head _
      · rw [message_of_mem_failureEvents h]
        exact .tail _ (.head _)
      · rw [List.mem_singleton.mp h]
        exact .tail _ (.tail _ (.head _))
  | idle => cases h
  | closed =>
      rw [List.mem_singleton.mp h]
      exact .tail _ (.tail _ (.tail _ (.head _)))

theorem filter_react :
    (react sink s polled).2.filter (fun event => !isDrainingReport timeouts event) =
      (react sink s polled).2 := by
  refine List.filter_eq_self.mpr fun event hevent => ?_
  have hmessage := message_of_mem_react hevent
  rw [Bool.not_eq_true', isDrainingReport, Bool.or_eq_false_iff, decide_eq_false_iff_not,
    decide_eq_false_iff_not]
  constructor
  · rintro rfl
    simp [drainingEvent] at hmessage
  · rintro rfl
    simp [expiredEvent] at hmessage

theorem sink_react {answer : List LogRecord → LogRecord → Outcome} {s : State (List LogRecord)} :
    (react (.answering answer) s polled).1.sink =
      s.sink ++ (polled.payload?.bind Envelope.record?).toList := by
  cases polled with
  | message payload =>
      rw [react]
      by_cases hpayload : payload = LogRelay.sentinel
      · subst hpayload
        rw [handle_sentinel]
        simp [Polled.payload?, Envelope.record?, Envelope.decode_eq_sentinel_iff.mpr]
      · rw [handle_answering hpayload]
        rfl
  | idle => simp [react, Polled.payload?]
  | closed => simp [react, Polled.payload?]

end React

namespace Timed

variable {σ : Type} {timeouts : Timeouts} {sink : Sink σ} {s : Timed σ} {p : Pace}

/-- The report of a turn that fixes the deadline. -/
def noticed (timeouts : Timeouts) (s : Timed σ) : List Event :=
  if s.loop.deadline.isNone && (s.plan timeouts).deadline.isSome then [drainingEvent timeouts]
  else []

/-- What a turn can do. Once the loop has ended it does nothing; at the deadline it ends the loop
without a wait; otherwise it waits and handles what the wait gives. -/
theorem step_cases (timeouts : Timeouts) (sink : Sink σ) (s : Timed σ) (p : Pace) :
    (s.loop.ending ≠ none ∧
      s.step timeouts sink p = { s with running := s.running && !p.clears }) ∨
    (s.loop.ending = none ∧ (s.plan timeouts).wait = none ∧
      s.step timeouts sink p =
        { s with
          loop := { s.loop with
            deadline := (s.plan timeouts).deadline
            ending := some .expired }
          running := s.running && !p.clears
          events := s.events ++ (s.noticed timeouts ++ [expiredEvent]) }) ∨
    ∃ limit, s.loop.ending = none ∧ (s.plan timeouts).wait = some limit ∧
      s.step timeouts sink p =
        { loop := { (react sink s.loop p.polled).1 with deadline := (s.plan timeouts).deadline }
          now := s.now + p.waited + (if p.polled.callsSink then p.worked else 0)
          running := s.running && !p.clears
          waits := s.waits ++ [⟨s.now, limit, p.polled⟩]
          events := s.events ++ (s.noticed timeouts ++ (react sink s.loop p.polled).2) } := by
  cases hending : s.loop.ending with
  | some ending =>
      refine .inl ⟨nofun, ?_⟩
      unfold step wait?
      rw [turn_ended (by simp [hending]), hending]
      simp
  | none =>
      refine .inr ?_
      cases hwait : (s.plan timeouts).wait with
      | none =>
          refine .inl ⟨rfl, rfl, ?_⟩
          have hturn : turn timeouts sink s.loop ⟨s.running, s.now, p.polled⟩ =
              ({ s.loop with
                  deadline := (s.plan timeouts).deadline
                  ending := some .expired }, s.noticed timeouts ++ [expiredEvent]) := by
            unfold turn
            rw [if_neg (by simp [hending])]
            unfold plan at hwait
            simp only [hwait]
            rfl
          unfold step wait?
          rw [hturn, hending]
          simp only [hwait]
      | some limit =>
          refine .inr ⟨limit, rfl, rfl, ?_⟩
          have hturn : turn timeouts sink s.loop ⟨s.running, s.now, p.polled⟩ =
              ({ (react sink s.loop p.polled).1 with deadline := (s.plan timeouts).deadline },
                s.noticed timeouts ++ (react sink s.loop p.polled).2) := by
            unfold turn
            rw [if_neg (by simp [hending])]
            unfold plan at hwait
            simp only [hwait, react_deadline]
            rfl
          unfold step wait?
          rw [hturn, hending]
          simp only [hwait]

theorem plan_running (h : s.running = true) :
    s.plan timeouts = ⟨s.loop.deadline, some timeouts.poll.nanos⟩ := by
  rw [plan, h]
  rfl

theorem plan_cleared (h : s.running = false) :
    let limit := s.loop.deadline.getD (s.now + timeouts.drain.nanos)
    s.plan timeouts =
      ⟨some limit, if limit ≤ s.now then none
        else some (min timeouts.poll.nanos (limit - s.now))⟩ := by
  rw [plan, h]
  rfl

theorem running_step : (s.step timeouts sink p).running = (s.running && !p.clears) := by
  rcases step_cases timeouts sink s p with ⟨-, h⟩ | ⟨-, -, h⟩ | ⟨_, -, -, h⟩ <;> rw [h]

theorem deadline_step_of_ended (h : s.loop.ending ≠ none) :
    (s.step timeouts sink p).loop.deadline = s.loop.deadline := by
  rcases step_cases timeouts sink s p with ⟨-, hstep⟩ | ⟨hnone, -⟩ | ⟨_, hnone, -⟩
  · rw [hstep]
  · exact absurd hnone h
  · exact absurd hnone h

theorem deadline_step (h : s.loop.ending = none) :
    (s.step timeouts sink p).loop.deadline = (s.plan timeouts).deadline := by
  rcases step_cases timeouts sink s p with ⟨hsome, -⟩ | ⟨-, -, hstep⟩ | ⟨_, -, -, hstep⟩
  · exact absurd h hsome
  · rw [hstep]
  · rw [hstep]

/-- While the running flag is set, no deadline is fixed. -/
theorem deadline_step_running (h : s.running = true) :
    (s.step timeouts sink p).loop.deadline = s.loop.deadline := by
  by_cases hending : s.loop.ending = none
  · rw [deadline_step hending, plan_running h]
  · exact deadline_step_of_ended hending

/-- A wait that begins before the deadline and ends by it, unless it is late. -/
def InTime (timeouts : Timeouts) (deadline : Nat) (wait : Wait) : Prop :=
  wait.start < deadline ∧ 0 < wait.limit ∧
    wait.limit = min timeouts.poll.nanos (deadline - wait.start)

/-- What a turn that sees the running flag cleared adds to the waits. -/
theorem waits_step_cleared {deadline : Nat} (hpoll : 0 < timeouts.poll.nanos)
    (h : s.running = false)
    (hdeadline : s.loop.ending = none → (s.plan timeouts).deadline = some deadline) :
    ∃ later, (s.step timeouts sink p).waits = s.waits ++ later ∧
      ∀ wait ∈ later, InTime timeouts deadline wait := by
  rcases step_cases timeouts sink s p with ⟨-, hstep⟩ | ⟨-, -, hstep⟩ |
    ⟨limit, hending, hwait, hstep⟩
  · exact ⟨[], by rw [hstep, List.append_nil], List.forall_mem_nil _⟩
  · exact ⟨[], by rw [hstep, List.append_nil], List.forall_mem_nil _⟩
  · refine ⟨_, by rw [hstep], List.forall_mem_singleton.mpr ?_⟩
    have hlimit := hdeadline hending
    rw [plan_cleared h] at hwait hlimit
    obtain rfl := Option.some.inj hlimit
    simp only [Option.ite_none_left_eq_some, Option.some.injEq] at hwait
    obtain ⟨hlater, rfl⟩ := hwait
    have hleft := Nat.lt_of_not_le hlater
    exact ⟨hleft, Nat.lt_min.mpr ⟨hpoll, Nat.sub_pos_of_lt hleft⟩, rfl⟩

/-- A turn ends the loop for the deadline exactly if the flag is cleared and the deadline was fixed
by an earlier turn and is reached. -/
theorem expired_step_iff (hdrain : 0 < timeouts.drain.nanos) :
    (s.step timeouts sink p).loop.ending = some .expired ↔
      s.loop.ending = some .expired ∨
      s.loop.ending = none ∧ s.running = false ∧
        ∃ deadline, s.loop.deadline = some deadline ∧ deadline ≤ s.now := by
  rcases step_cases timeouts sink s p with ⟨hended, hstep⟩ | ⟨hending, hwait, hstep⟩ |
    ⟨limit, hending, hwait, hstep⟩
  · simp [hstep, hended]
  · have hcleared : s.running = false := by
      refine Bool.eq_false_iff.mpr fun hrunning => ?_
      rw [plan_running hrunning] at hwait
      cases hwait
    rw [plan_cleared hcleared] at hwait
    simp only [ite_eq_left_iff, reduceCtorEq, imp_false, Decidable.not_not] at hwait
    -- a deadline that this very turn fixed would still be ahead
    cases hdeadline : s.loop.deadline with
    | none =>
        rw [hdeadline, Option.getD_none] at hwait
        omega
    | some deadline =>
        rw [hdeadline, Option.getD_some] at hwait
        simp [hstep, hending, hcleared, hwait]
  · have hreact : (react sink s.loop p.polled).1.ending ≠ some .expired := by
      rw [ending_react hending]
      exact ending?_ne_expired p.polled
    have hahead : s.running = false → ∀ deadline, s.loop.deadline = some deadline →
        s.now < deadline := by
      intro hcleared deadline hdeadline
      rw [plan_cleared hcleared, hdeadline] at hwait
      simp only [Option.getD_some, Option.ite_none_left_eq_some] at hwait
      exact Nat.lt_of_not_le hwait.1
    simp only [hstep, hreact, hending, reduceCtorEq, false_or, true_and, false_iff, not_and,
      not_exists, Nat.not_le]
    exact hahead

/-- What holds of a loop once its deadline is fixed, given the waits before that. -/
structure Drains (timeouts : Timeouts) (deadline : Nat) (before : List Wait) (s : Timed σ) :
    Prop where
  /-- The running flag is cleared. -/
  cleared : s.running = false
  /-- The deadline is the one that was fixed. -/
  fixed : s.loop.deadline = some deadline
  /-- All further waits are in time. -/
  inTime : ∃ later, s.waits = before ++ later ∧ ∀ wait ∈ later, InTime timeouts deadline wait

/-- The first turn that sees the running flag cleared fixes the deadline. -/
theorem drains_step_first (hpoll : 0 < timeouts.poll.nanos) (hending : s.loop.ending = none)
    (hcleared : s.running = false) (hdeadline : s.loop.deadline = none) :
    Drains timeouts (s.now + timeouts.drain.nanos) s.waits (s.step timeouts sink p) := by
  have hplan : (s.plan timeouts).deadline = some (s.now + timeouts.drain.nanos) := by
    rw [plan_cleared hcleared, hdeadline]
    rfl
  exact ⟨by rw [running_step, hcleared, Bool.false_and], by rw [deadline_step hending, hplan],
    waits_step_cleared hpoll hcleared fun _ => hplan⟩

/-- No later turn moves the deadline. -/
theorem Drains.step {deadline : Nat} {before : List Wait} (h : Drains timeouts deadline before s)
    (hpoll : 0 < timeouts.poll.nanos) :
    Drains timeouts deadline before (s.step timeouts sink p) := by
  have hplan : (s.plan timeouts).deadline = some deadline := by
    rw [plan_cleared h.cleared, h.fixed]
    rfl
  constructor
  · rw [running_step, h.cleared, Bool.false_and]
  · by_cases hending : s.loop.ending = none
    · rw [deadline_step hending, hplan]
    · rw [deadline_step_of_ended hending, h.fixed]
  · obtain ⟨earlier, hwaits, hearlier⟩ := h.inTime
    obtain ⟨later, hstep, hlater⟩ : ∃ later, (s.step timeouts sink p).waits = s.waits ++ later ∧
        ∀ wait ∈ later, InTime timeouts deadline wait :=
      waits_step_cleared hpoll h.cleared fun _ => hplan
    refine ⟨earlier ++ later, ?_, List.forall_mem_append.mpr ⟨hearlier, hlater⟩⟩
    rw [hstep, hwaits, List.append_assoc]

section

variable {paces : Nat → Pace} {k : Nat}

theorem deadline_after_running {n : Nat}
    (h : ∀ i < n, (s.after timeouts sink paces i).running = true) :
    (s.after timeouts sink paces n).loop.deadline = s.loop.deadline := by
  induction n with
  | zero => rfl
  | succ n ih =>
      rw [after, deadline_step_running (h n (Nat.lt_succ_self n))]
      exact ih fun i hi => h i (Nat.lt_succ_of_lt hi)

theorem drains_after (hpoll : 0 < timeouts.poll.nanos) (hdeadline : s.loop.deadline = none)
    (hending : (s.after timeouts sink paces k).loop.ending = none)
    (hcleared : (s.after timeouts sink paces k).running = false)
    (hfirst : ∀ i < k, (s.after timeouts sink paces i).running = true) {n : Nat} (hn : k < n) :
    let seen := s.after timeouts sink paces k
    Drains timeouts (seen.now + timeouts.drain.nanos) seen.waits
      (s.after timeouts sink paces n) := by
  induction hn with
  | refl =>
      exact drains_step_first hpoll hending hcleared
        ((deadline_after_running hfirst).trans hdeadline)
  | step _ ih => exact ih.step hpoll

/-- The deadline ends the loop in the first turn that finds it reached. -/
theorem expired_after_iff (hdrain : 0 < timeouts.drain.nanos) (hending : s.loop.ending = none)
    (n : Nat) :
    (s.after timeouts sink paces n).loop.ending = some .expired ↔
      ∃ i < n, (s.after timeouts sink paces i).loop.ending = none ∧
        (s.after timeouts sink paces i).running = false ∧
        ∃ deadline, (s.after timeouts sink paces i).loop.deadline = some deadline ∧
          deadline ≤ (s.after timeouts sink paces i).now := by
  induction n with
  | zero => simp [after, hending]
  | succ n ih =>
      rw [after, expired_step_iff hdrain, ih]
      constructor
      · rintro (⟨i, hi, hends⟩ | hends)
        · exact ⟨i, Nat.lt_succ_of_lt hi, hends⟩
        · exact ⟨n, Nat.lt_succ_self n, hends⟩
      · rintro ⟨i, hi, hends⟩
        rcases Nat.lt_succ_iff_lt_or_eq.mp hi with hlt | rfl
        · exact .inl ⟨i, hlt, hends⟩
        · exact .inr hends

end

/-- What holds after any number of turns. -/
structure Invariant (timeouts : Timeouts) (answer : List LogRecord → LogRecord → Outcome)
    (s : Timed (List LogRecord)) : Prop where
  /-- Apart from draining, all is as if the running flag had stayed set over the same waits. -/
  twin : run timeouts (.answering answer) { sink := [] } (s.waits.map Wait.whileRunning) =
    (s.loop.undrained, s.events.filter fun event => !isDrainingReport timeouts event)
  /-- The sink was called with the records of the messages. -/
  calls : s.loop.sink =
    ((s.waits.map Wait.polled).filterMap Polled.payload?).filterMap Envelope.record?
  /-- A wait that can end the loop ended it. -/
  ends : ∀ wait ∈ s.waits, ∀ ending, wait.polled.ending? = some ending →
    s.loop.ending = some ending
  /-- Short of the deadline, only a wait ends the loop. -/
  endedBy : ∀ ending, s.loop.ending = some ending → ending ≠ .expired →
    ∃ wait ∈ s.waits, wait.polled.ending? = some ending

section

variable {answer : List LogRecord → LogRecord → Outcome} {s : Timed (List LogRecord)}

theorem invariant_start (now : Nat) (running : Bool) :
    Invariant timeouts answer (start [] now running) where
  twin := rfl
  calls := rfl
  ends := List.forall_mem_nil _
  endedBy := nofun

theorem filter_noticed : (s.noticed timeouts).filter
    (fun event => !isDrainingReport timeouts event) = [] := by
  unfold noticed
  split
  · simp [isDrainingReport]
  · rfl

/-- As long as the loop has not ended, no wait gave what ends it. -/
theorem Invariant.ending?_eq_none (h : Invariant timeouts answer s) (hending : s.loop.ending = none)
    {wait : Wait} (hmem : wait ∈ s.waits) : wait.polled.ending? = none := by
  refine Option.eq_none_iff_forall_ne_some.mpr fun ending hends => ?_
  exact nomatch hending.symm.trans (h.ends wait hmem ending hends)

theorem Invariant.step (h : Invariant timeouts answer s) (p : Pace) :
    Invariant timeouts answer (s.step timeouts (.answering answer) p) := by
  rcases step_cases timeouts (.answering answer) s p with ⟨-, hstep⟩ | ⟨hending, -, hstep⟩ |
    ⟨limit, hending, -, hstep⟩
  · rw [hstep]
    exact { h with }
  · rw [hstep]
    constructor
    · rw [h.twin, undrained_of_ne_expired (by simp [hending]), List.filter_append,
        List.filter_append, filter_noticed]
      simp only [State.undrained, isDrainingReport, hending, decide_true, Bool.or_true,
        Bool.not_true, List.filter_cons_of_neg, Bool.false_eq_true,
        not_false_eq_true, List.filter_nil, List.append_nil]
      rfl
    · exact h.calls
    · intro wait hmem ending hends
      exact nomatch (h.ending?_eq_none hending hmem).symm.trans hends
    · intro ending hended hne
      exact absurd (Option.some.inj hended).symm hne
  · rw [hstep]
    have hreact : (react (.answering answer) s.loop p.polled).1.ending = p.polled.ending? :=
      ending_react hending
    constructor
    · have hturn : run timeouts (.answering answer) { s.loop with deadline := none }
          [⟨true, s.now, p.polled⟩] =
            ({ (react (.answering answer) s.loop p.polled).1 with deadline := none },
              (react (.answering answer) s.loop p.polled).2) := by
        have hnone : State.ending { s.loop with deadline := none } = none := hending
        rw [run_singleton, turn_running hnone, react_deadline]
      have hafter : State.ending { (react (.answering answer) s.loop p.polled).1 with
          deadline := (s.plan timeouts).deadline } ≠ some .expired := by
        dsimp only
        rw [hreact]
        exact ending?_ne_expired p.polled
      dsimp only
      rw [List.map_append, run_append, h.twin, undrained_of_ne_expired (by simp [hending]),
        undrained_of_ne_expired hafter, List.filter_append, List.filter_append, filter_noticed,
        filter_react]
      simp only [List.map_cons, List.map_nil, Wait.whileRunning, hturn, List.nil_append]
    · dsimp only
      rw [sink_react, h.calls, List.map_append, List.filterMap_append, List.filterMap_append]
      cases p.polled with
      | message payload =>
          cases hrecord : Envelope.record? payload <;> simp [Polled.payload?, hrecord]
      | idle => simp [Polled.payload?]
      | closed => simp [Polled.payload?]
    · intro wait hmem ending hends
      rcases List.mem_append.mp hmem with hbefore | hnew
      · exact nomatch (h.ending?_eq_none hending hbefore).symm.trans hends
      · obtain rfl := List.mem_singleton.mp hnew
        exact hreact.trans hends
    · intro ending hended _
      exact ⟨_, List.mem_append_right _ (List.mem_singleton.mpr rfl), hreact.symm.trans hended⟩

theorem invariant_after (now : Nat) (running : Bool) (paces : Nat → Pace) (n : Nat) :
    Invariant timeouts answer
      ((start [] now running).after timeouts (.answering answer) paces n) := by
  induction n with
  | zero => exact invariant_start now running
  | succ n ih => exact ih.step (paces n)

theorem Invariant.ending_eq_some_iff (h : Invariant timeouts answer s) (ending : Ending)
    (hne : ending ≠ .expired) :
    s.loop.ending = some ending ↔ ∃ wait ∈ s.waits, wait.polled.ending? = some ending := by
  constructor
  · exact fun hended => h.endedBy ending hended hne
  · rintro ⟨wait, hmem, hends⟩
    exact h.ends wait hmem ending hends

/-- The loop drains in bounded time, whatever the surroundings do. The first turn that sees the
running flag cleared fixes the deadline; it stays, and each later wait begins before it and lasts as
long as a wait may, or for the time that is left if that is less. The sink is called with the
records of all messages that the waits gave, before and while the loop drains, and the reports apart
from those on draining are the same, just as if the flag had stayed set. The sentinel signal is
given if one of the messages is the sentinel. The loop ends with the sentinel, when nothing can come
any more, or at the deadline, and not otherwise. -/
theorem after_drains (config : Config) (hvalid : config.validate = .ok ())
    (answer : List LogRecord → LogRecord → Outcome) (now : Nat) (running : Bool)
    (paces : Nat → Pace) :
    let timeouts := config.timeouts
    let s := (start [] now running).after timeouts (.answering answer) paces
    (∀ k, (s k).loop.ending = none → (s k).running = false → (∀ i < k, (s i).running = true) →
      let deadline := (s k).now + timeouts.drain.nanos
      (∀ n ≤ k, (s n).loop.deadline = none) ∧
      (∀ n > k, (s n).loop.deadline = some deadline) ∧
      ∀ n > k, ∀ wait ∈ (s n).waits.drop (s k).waits.length,
        wait.start < deadline ∧ 0 < wait.limit ∧
          wait.limit = min timeouts.poll.nanos (deadline - wait.start)) ∧
    ∀ n,
      let polls := (s n).waits.map Wait.polled
      let popped := polls.filterMap Polled.payload?
      let twin := run timeouts (.answering answer) { sink := [] }
        ((s n).waits.map Wait.whileRunning)
      (s n).loop.sink = popped.filterMap Envelope.record? ∧
      twin.1.sink = (s n).loop.sink ∧
      twin.2 = (s n).events.filter (fun event => !isDrainingReport timeouts event) ∧
      (∀ shared : Shared, shared.sentinel = false →
        (((s n).loop.signal shared).sentinel = true ↔ LogRelay.sentinel ∈ popped)) ∧
      ((s n).loop.ending = some .sentinel ↔ LogRelay.sentinel ∈ popped) ∧
      ((s n).loop.ending = some .closed ↔ .closed ∈ polls) ∧
      ((s n).loop.ending = some .expired ↔ ∃ i < n, (s i).loop.ending = none ∧
        (s i).running = false ∧ ∃ deadline, (s i).loop.deadline = some deadline ∧
          deadline ≤ (s i).now) := by
  intro timeouts s
  have hpoll : 0 < timeouts.poll.nanos := (Config.nanos_of_validate hvalid .poll).1
  have hdrain : 0 < timeouts.drain.nanos := (Config.nanos_of_validate hvalid .drain).1
  refine ⟨fun k hending hcleared hfirst => ?_, fun n => ?_⟩
  · intro deadline
    have hdrains (n : Nat) (hn : k < n) : Drains timeouts deadline (s k).waits (s n) :=
      drains_after hpoll rfl hending hcleared hfirst hn
    refine ⟨fun n hn => ?_, fun n hn => (hdrains n hn).fixed, fun n hn wait hmem => ?_⟩
    · exact deadline_after_running fun i hi => hfirst i (Nat.lt_of_lt_of_le hi hn)
    · obtain ⟨later, hwaits, hlater⟩ := (hdrains n hn).inTime
      rw [hwaits, List.drop_left] at hmem
      exact hlater wait hmem
  · intro polls popped twin
    have h : Invariant timeouts answer (s n) := invariant_after now running paces n
    have hsentinel : (s n).loop.ending = some .sentinel ↔ LogRelay.sentinel ∈ popped := by
      rw [h.ending_eq_some_iff .sentinel nofun]
      simp [popped, polls, ending?_eq_sentinel_iff, payload?_eq_some_iff]
    refine ⟨h.calls, ?_, ?_, fun shared hshared => ?_, hsentinel, ?_,
      expired_after_iff hdrain rfl n⟩
    · exact congrArg (·.1.sink) h.twin
    · exact congrArg Prod.snd h.twin
    · rw [sentinel_signal_iff hshared, hsentinel]
    · rw [h.ending_eq_some_iff .closed nofun]
      simp [polls, ending?_eq_closed_iff]

/-- A slow call of the sink takes most of the time for draining, and the deadline does not move. -/
theorem after_drains_slow_sink :
    let config := Config.default 4510
    let r : LogRecord := { LogRecord.blank with name := "x", levelname := "NOTSET" }
    let payload : List UInt8 := [0x81, 0xa4, 0x6e, 0x61, 0x6d, 0x65, 0xa1, 0x78]
    let paces (i : Nat) : Pace :=
      [⟨.message payload, 10, 7, true⟩, ⟨.message [0xc1], 0, 0, false⟩,
        ⟨.message payload, 5, 4500000000, false⟩, ⟨.idle, 499999995, 0, false⟩].getD i
        ⟨.idle, 1000000000, 0, false⟩
    let s := (start [] 0 true).after config.timeouts (.answering fun _ _ => .taken) paces
    config.validate = .ok () ∧ (s 1).now = 17 ∧ (s 5).loop.deadline = some 5000000017 ∧
      (∀ wait ∈ (s 5).waits.drop 1, wait.start < 5000000017 ∧ 0 < wait.limit ∧
        wait.limit = min 1000000000 (5000000017 - wait.start)) ∧
      (s 5).loop.sink = [r, r] ∧ (s 5).loop.ending = some .expired := by
  intro config r payload paces s
  have hvalid : config.validate = .ok () := by decide +kernel
  have hbounds : config.timeouts.poll.nanos = 1000000000 ∧
      config.timeouts.drain.nanos = 5000000000 := by decide +kernel
  have hfirst : (s 0).running = true ∧ (s 1).running = false ∧ (s 1).loop.ending = none ∧
      (s 1).now = 17 ∧ (s 1).waits.length = 1 := by decide +kernel
  have hpopped : ((s 5).waits.map Wait.polled).filterMap Polled.payload? =
      [payload, [0xc1], payload] := by decide +kernel
  have hrecords : [payload, [0xc1], payload].filterMap Envelope.record? = [r, r] := by rfl
  have hreached : (s 4).loop.ending = none ∧ (s 4).running = false ∧
      (s 4).loop.deadline = some 5000000017 ∧ (s 4).now = 5000000017 := by decide +kernel
  obtain ⟨hset, hcleared, hending, hnow, hlength⟩ := hfirst
  obtain ⟨hopen, hstill, hdeadline, hclock⟩ := hreached
  have hdrains := after_drains config hvalid (fun _ _ => .taken) 0 true paces
  -- from here on the states are opaque, so that nothing runs the loop again
  have hs : (start [] 0 true).after config.timeouts (.answering fun _ _ => .taken) paces = s := rfl
  dsimp only at hdrains
  rw [hs] at hdrains
  clear_value s
  obtain ⟨hseen, hall⟩ := hdrains
  obtain ⟨-, hfixed, hwaits⟩ := hseen 1 hending hcleared fun i hi => by
    obtain rfl := Nat.lt_one_iff.mp hi
    exact hset
  obtain ⟨hcalls, -, -, -, -, -, hexpired⟩ := hall 5
  have hsum : 17 + 5000000000 = 5000000017 := rfl
  rw [hnow, hbounds.2, hsum] at hfixed hwaits
  rw [hbounds.1, hlength] at hwaits
  rw [hpopped, hrecords] at hcalls
  exact ⟨hvalid, hnow, hfixed 5 (by decide), hwaits 5 (by decide), hcalls,
    hexpired.mpr ⟨4, by decide, hopen, hstill, _, hdeadline, Nat.le_of_eq hclock.symm⟩⟩

end

end Timed

end LogRelay.Worker
