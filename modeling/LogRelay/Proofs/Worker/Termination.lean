import LogRelay.Proofs.Worker.Draining
import Mathlib.Algebra.Order.Floor.Div

/-!
# A loop that is told to stop ends

Nothing counts the waits of a loop that drains. Each of them brings a message or wears away time,
and a wait that begins is still before the deadline. So the waits that bring nothing fit into the
time for draining, and the loop ends after that many waits and one for each message that still
arrives.
-/

namespace LogRelay.Worker

/-- Whether a wait brought a message. -/
def Wait.isFruitful (wait : Wait) : Bool :=
  wait.polled.payload?.isSome

/-- The surroundings let a wait that brings nothing last as long as it may. -/
def Pace.Lasts (p : Pace) (limit : Nat) : Prop :=
  p.polled = .idle → limit ≤ p.waited

namespace Timed

variable {σ : Type} {timeouts : Timeouts} {sink : Sink σ} {s : Timed σ} {p : Pace}

/-- How many waits fit into the time for draining. -/
def drainingWaits (timeouts : Timeouts) : Nat :=
  timeouts.drain.nanos ⌈/⌉ timeouts.poll.nanos

theorem lt_drainingWaits_iff (hpoll : 0 < timeouts.poll.nanos) {n : Nat} :
    n < drainingWaits timeouts ↔ n * timeouts.poll.nanos < timeouts.drain.nanos := by
  rw [drainingWaits, ← not_le, ceilDiv_le_iff_le_mul hpoll, not_le, Nat.mul_comm]

/-- A loop that has ended and whose running flag is cleared stays as it is. -/
theorem step_of_ended (hcleared : s.running = false) (hended : s.loop.ending ≠ none) :
    s.step timeouts sink p = s := by
  rcases step_cases timeouts sink s p with ⟨-, hstep⟩ | ⟨hending, -⟩ | ⟨_, hending, -⟩
  · rw [hstep, hcleared, Bool.false_and, ← hcleared]
  · exact absurd hending hended
  · exact absurd hending hended

/-- No wait is to last longer than a wait may. -/
theorem le_of_wait?_eq_some {limit : Nat} (h : s.wait? timeouts = some limit) :
    limit ≤ timeouts.poll.nanos := by
  unfold wait? at h
  split at h
  · cases hrunning : s.running with
    | true =>
        rw [plan_running hrunning] at h
        exact Nat.le_of_eq (Option.some.inj h).symm
    | false =>
        rw [plan_cleared hrunning] at h
        simp only [Option.ite_none_left_eq_some, Option.some.injEq] at h
        exact h.2 ▸ Nat.min_le_left _ _
  · cases h

/-- How many waits brought no message. -/
def fruitless (waits : List Wait) : Nat :=
  waits.countP (!·.isFruitful)

theorem fruitless_append_singleton (waits : List Wait) (wait : Wait) :
    fruitless (waits ++ [wait]) = fruitless waits + if wait.isFruitful then 0 else 1 := by
  rw [fruitless, List.countP_append, fruitless, List.countP_singleton]
  cases wait.isFruitful <;> rfl

theorem length_eq_fruitless_add (waits : List Wait) :
    waits.length = waits.countP Wait.isFruitful + fruitless waits := by
  rw [List.length_eq_countP_add_countP Wait.isFruitful, fruitless]
  simp only [Bool.not_eq_true, Bool.decide_eq_false]

/-- What holds of a loop that drains since the moment `begun`, given the waits before that. -/
structure Wears (timeouts : Timeouts) (begun : Nat) (before : List Wait) (s : Timed σ) :
    Prop where
  /-- The running flag is cleared. -/
  cleared : s.running = false
  /-- The next turn goes by the deadline of the first one. -/
  due : (s.plan timeouts).deadline = some (begun + timeouts.drain.nanos)
  /-- The waits that brought nothing fit into the time for draining, and as long as the loop has not
  ended they have worn it away. -/
  worn : ∃ later, s.waits = before ++ later ∧ fruitless later ≤ drainingWaits timeouts ∧
    (s.loop.ending = none →
      begun + min (fruitless later * timeouts.poll.nanos) timeouts.drain.nanos ≤ s.now)

theorem wears_first (hcleared : s.running = false) (hdeadline : s.loop.deadline = none) :
    Wears timeouts s.now s.waits s where
  cleared := hcleared
  due := by
    rw [plan_cleared hcleared, hdeadline]
    rfl
  worn := ⟨[], (List.append_nil _).symm, Nat.zero_le _, fun _ => by simp [fruitless]⟩

/-- The plan of a turn that sees the flag cleared, by the deadline that it goes by. -/
theorem wait_of_deadline {deadline limit : Nat} (hcleared : s.running = false)
    (hdeadline : (s.plan timeouts).deadline = some deadline)
    (hwait : (s.plan timeouts).wait = some limit) :
    s.now < deadline ∧ limit = min timeouts.poll.nanos (deadline - s.now) := by
  rw [plan_cleared hcleared] at hdeadline hwait
  obtain rfl := Option.some.inj hdeadline
  simp only [Option.ite_none_left_eq_some, Option.some.injEq] at hwait
  exact ⟨Nat.lt_of_not_le hwait.1, hwait.2.symm⟩

/-- A wait of a loop that drains brings a message, ends the loop or wears away time. -/
theorem Wears.step {begun : Nat} {before : List Wait} (h : Wears timeouts begun before s)
    (hpoll : 0 < timeouts.poll.nanos)
    (hlasts : ∀ limit, s.wait? timeouts = some limit → p.Lasts limit) :
    Wears timeouts begun before (s.step timeouts sink p) := by
  have hcleared : (s.step timeouts sink p).running = false := by
    rw [running_step, h.cleared, Bool.false_and]
  have hdue (hending : s.loop.ending = none) :
      ((s.step timeouts sink p).plan timeouts).deadline = some (begun + timeouts.drain.nanos) := by
    rw [plan_cleared hcleared, deadline_step hending, h.due]
    rfl
  obtain ⟨later, hwaits, hfit, hworn⟩ := h.worn
  rcases step_cases timeouts sink s p with ⟨hended, -⟩ | ⟨hending, -, hstep⟩ |
    ⟨limit, hending, hwait, hstep⟩
  · rwa [step_of_ended h.cleared hended]
  · refine ⟨hcleared, hdue hending, later, ?_, hfit, fun hopen => ?_⟩
    · rw [hstep, hwaits]
    · rw [hstep] at hopen
      cases hopen
  · obtain ⟨hahead, hlimit⟩ := wait_of_deadline h.cleared h.due hwait
    have htime := hworn hending
    have hroom : fruitless later < drainingWaits timeouts := by
      rw [lt_drainingWaits_iff hpoll]
      omega
    refine ⟨hcleared, hdue hending, later ++ [⟨s.now, limit, p.polled⟩], ?_, ?_, fun hopen => ?_⟩
    · rw [hstep, hwaits, List.append_assoc]
    · rw [fruitless_append_singleton]
      split <;> omega
    · have hlasts : p.Lasts limit := hlasts limit (by rw [wait?, hending, hwait])
      rw [hstep] at hopen ⊢
      rw [fruitless_append_singleton]
      cases hpolled : p.polled with
      | message payload =>
          simp only [Wait.isFruitful, Polled.payload?, Option.isSome_some, if_true, Nat.add_zero]
          omega
      | idle =>
          have hslow : limit ≤ p.waited := hlasts hpolled
          simp only [Wait.isFruitful, Polled.payload?, Option.isSome_none, Bool.false_eq_true,
            if_false, Nat.succ_mul]
          omega
      | closed =>
          rw [hpolled] at hopen
          cases hopen

section

variable {paces : Nat → Pace} {k : Nat}

/-- What holds of every turn from the first one on that sees the running flag cleared. -/
theorem wears_after (hpoll : 0 < timeouts.poll.nanos) (hdeadline : s.loop.deadline = none)
    (hcleared : (s.after timeouts sink paces k).running = false)
    (hfirst : ∀ i < k, (s.after timeouts sink paces i).running = true)
    (hlasts : ∀ n ≥ k, ∀ limit, (s.after timeouts sink paces n).wait? timeouts = some limit →
      (paces n).Lasts limit) {n : Nat} (hn : k ≤ n) :
    let seen := s.after timeouts sink paces k
    Wears timeouts seen.now seen.waits (s.after timeouts sink paces n) := by
  induction n, hn using Nat.le_induction with
  | base => exact wears_first hcleared ((deadline_after_running hfirst).trans hdeadline)
  | succ n hn ih => exact ih.step hpoll (hlasts n hn)

theorem after_of_ended (hcleared : (s.after timeouts sink paces k).running = false)
    (hended : (s.after timeouts sink paces k).loop.ending ≠ none) {n : Nat} (hn : k ≤ n) :
    s.after timeouts sink paces n = s.after timeouts sink paces k := by
  induction n, hn using Nat.le_induction with
  | base => rfl
  | succ n _ ih => rw [after, ih, step_of_ended hcleared hended]

/-- Every turn of a loop that does not end there is a wait. -/
theorem length_waits_after (k n : Nat)
    (hending : (s.after timeouts sink paces (k + n)).loop.ending = none) :
    (s.after timeouts sink paces (k + n)).waits.length =
      (s.after timeouts sink paces k).waits.length + n := by
  induction n with
  | zero => rfl
  | succ n ih =>
      rw [← Nat.add_assoc, after] at hending ⊢
      rcases step_cases timeouts sink (s.after timeouts sink paces (k + n)) (paces (k + n)) with
        ⟨hended, hstep⟩ | ⟨-, -, hstep⟩ | ⟨limit, hopen, -, hstep⟩
      · rw [hstep] at hending
        exact absurd hending hended
      · rw [hstep] at hending
        cases hending
      · rw [hstep, List.length_append, List.length_singleton, ih hopen, Nat.add_assoc]

end

/-- A loop that is told to stop ends. From the first turn on that sees the running flag cleared, if
waits that bring nothing last as long as they may and at most `messages` waits bring a message, the
loop waits at most that often and as often as waits fit into the time for draining. It has ended by
the turn after that, whenever the messages arrive and whatever the sink does. -/
theorem after_terminates (config : Config) (hvalid : config.validate = .ok ()) (sink : Sink σ)
    (kept : σ) (now : Nat) (running : Bool) (paces : Nat → Pace) (k messages : Nat) :
    let timeouts := config.timeouts
    let s := (start kept now running).after timeouts sink paces
    let later (n : Nat) := (s n).waits.drop (s k).waits.length
    let most := messages + timeouts.drain.nanos ⌈/⌉ timeouts.poll.nanos
    (s k).running = false → (∀ i < k, (s i).running = true) →
      (∀ n ≥ k, ∀ limit, (s n).wait? timeouts = some limit → (paces n).Lasts limit) →
      (∀ n ≥ k, (later n).countP Wait.isFruitful ≤ messages) →
      (∀ n ≥ k, (later n).length ≤ most) ∧ ∀ n > k + most, (s n).loop.ending ≠ none := by
  intro timeouts s later most hcleared hfirst hlasts hmessages
  have hpoll : 0 < timeouts.poll.nanos := (Config.nanos_of_validate hvalid .poll).1
  have hmost (n : Nat) (hn : k ≤ n) : (later n).length ≤ most := by
    have hwears : Wears timeouts (s k).now (s k).waits (s n) :=
      wears_after hpoll rfl hcleared hfirst hlasts hn
    obtain ⟨rest, hwaits, hfit, -⟩ := hwears.worn
    have hrest : later n = rest := by
      simp only [later, hwaits, List.drop_left]
    have hfew := hmessages n hn
    rw [hrest] at hfew ⊢
    rw [length_eq_fruitless_add]
    exact Nat.add_le_add hfew hfit
  refine ⟨hmost, fun n hn hopen => ?_⟩
  obtain ⟨turns, rfl⟩ := Nat.exists_eq_add_of_le (Nat.le_of_lt (Nat.lt_of_le_of_lt
    (Nat.le_add_right k most) hn))
  have hlength : (s (k + turns)).waits.length = (s k).waits.length + turns :=
    length_waits_after k turns hopen
  have hbound := hmost (k + turns) (Nat.le_add_right k turns)
  simp only [later, List.length_drop] at hbound
  omega

/-- The loop waits as often as it can: a message comes late, and all other waits are idle. -/
theorem after_terminates_late_message :
    let config := Config.default 4510
    let payload : List UInt8 := [0x81, 0xa4, 0x6e, 0x61, 0x6d, 0x65, 0xa1, 0x78]
    let paces (i : Nat) : Pace :=
      [⟨.message payload, 10, 7, true⟩, ⟨.idle, 1000000000, 0, false⟩,
        ⟨.message [0xc1], 0, 0, false⟩].getD i ⟨.idle, 1000000000, 0, false⟩
    let s := (start [] 0 true).after config.timeouts (.answering fun _ _ => .taken) paces
    let later (n : Nat) := (s n).waits.drop (s 1).waits.length
    config.validate = .ok () ∧ (s 0).running = true ∧ (s 1).running = false ∧
      (s 7).loop.ending = none ∧ (later 7).length = 6 ∧
      (∀ n ≥ 1, (later n).length ≤ 6) ∧ ∀ n > 7, (s n).loop.ending ≠ none := by
  intro config payload paces s later
  have hvalid : config.validate = .ok () := by decide +kernel
  have hmost : 1 + config.timeouts.drain.nanos ⌈/⌉ config.timeouts.poll.nanos = 6 := by
    decide +kernel
  have hfirst : (s 0).running = true ∧ (s 1).running = false := by decide +kernel
  have hlast : (s 7).loop.ending = none ∧ (later 7).length = 6 := by decide +kernel
  have hstay (k n : Nat) (hcleared : (s k).running = false) (hended : (s k).loop.ending ≠ none)
      (hn : k ≤ n) : s n = s k :=
    after_of_ended hcleared hended hn
  have hended : (s 8).running = false ∧ (s 8).loop.ending ≠ none := by decide +kernel
  have hlasts (n : Nat) (limit : Nat) (hwait : (s n).wait? config.timeouts = some limit) :
      (paces n).Lasts limit := by
    intro hidle
    have hwaited : (paces n).waited = 1000000000 := by
      rcases n with _ | _ | _ | n
      · cases hidle
      · rfl
      · cases hidle
      · rfl
    exact hwaited ▸ le_of_wait?_eq_some hwait
  have hmessages (n : Nat) : (later n).countP Wait.isFruitful ≤ 1 := by
    have hbefore : ∀ i < 9, (later i).countP Wait.isFruitful ≤ 1 := by decide +kernel
    rcases Nat.lt_or_ge n 9 with hlt | hge
    · exact hbefore n hlt
    · have hlate : s n = s 8 := hstay 8 n hended.1 hended.2 (Nat.le_of_succ_le hge)
      have hsame : later n = later 8 := congrArg (fun after : Timed (List LogRecord) =>
        after.waits.drop (s 1).waits.length) hlate
      rw [hsame]
      exact hbefore 8 (by decide)
  have hset (i : Nat) (hi : i < 1) : (s i).running = true := by
    rw [Nat.lt_one_iff.mp hi]
    exact hfirst.1
  obtain ⟨hfew, hends⟩ := after_terminates config hvalid (.answering fun _ _ => .taken) [] 0 true
    paces 1 1 hfirst.2 hset (fun n _ => hlasts n) fun n _ => hmessages n
  rw [hmost] at hfew hends
  exact ⟨hvalid, hfirst.1, hfirst.2, hlast.1, hlast.2, hfew, hends⟩

end Timed

end LogRelay.Worker
