import LogRelay.Proofs.Worker.Running

/-!
# What a worker forwards

A sink is known by its answers, and an answer may depend on every call made before. Whatever the
answers are, a loop that is not told to stop calls the sink with the records of the messages before
the first sentinel, once each and in order. It warns of every message that is no record and of every
call that fails, and it ends at the sentinel, or when nothing can come any more, and not otherwise.
-/

namespace LogRelay

/-- The sink that answers a call from the calls made before; its state is the list of calls. -/
def Sink.answering (answer : List LogRecord → LogRecord → Outcome) : Sink (List LogRecord) where
  handle calls r := (calls ++ [r], answer calls r)

namespace Worker

/-- How the loop ends with what a wait gives, if it does while the running flag is set. -/
def Polled.ending? : Polled → Option Ending
  | .message payload => if payload = LogRelay.sentinel then some .sentinel else none
  | .idle => none
  | .closed => some .closed

/-- The message that a wait gives, if it gives one. -/
def Polled.payload? : Polled → Option (List UInt8)
  | .message payload => some payload
  | .idle | .closed => none

/-- The messages received before the loop ends. -/
def received (polls : List Polled) : List (List UInt8) :=
  (polls.takeWhile fun polled => polled.ending?.isNone).filterMap Polled.payload?

/-- The warning about a message that is no record. -/
def malformedReport? (payload : List UInt8) : Option Event :=
  match Envelope.decode payload with
  | .error e => some (malformedEvent e payload.length)
  | .ok _ => none

/-- How the calls of a sink end. -/
def outcomes (answer : List LogRecord → LogRecord → Outcome) (calls : List LogRecord) :
    List Outcome :=
  calls.mapIdx fun i r => answer (calls.take i) r

/-- The last report of a loop. -/
def Ending.event : Ending → Event
  | .sentinel => sentinelEvent
  | .expired => expiredEvent
  | .closed => closedEvent

/-- The reports on one message that is not the sentinel, given the calls made before. -/
def report (answer : List LogRecord → LogRecord → Outcome) (before : List LogRecord)
    (payload : List UInt8) : List Event :=
  match Envelope.decode payload with
  | .ok (.record r) => failureEvents r (answer before r)
  | .ok .sentinel => []
  | .error e => [malformedEvent e payload.length]

/-- The reports on messages, given the calls made before. -/
def reports (answer : List LogRecord → LogRecord → Outcome) (before : List LogRecord) :
    List (List UInt8) → List Event
  | [] => []
  | payload :: rest =>
    report answer before payload ++
      reports answer (before ++ (Envelope.record? payload).toList) rest

section Received

variable {polled : Polled} {payload : List UInt8} {polls : List Polled}

@[simp] theorem ending?_idle : Polled.idle.ending? = none := rfl

@[simp] theorem ending?_closed : Polled.closed.ending? = some .closed := rfl

@[simp] theorem ending?_sentinel :
    (Polled.message LogRelay.sentinel).ending? = some .sentinel := by
  simp [Polled.ending?]

theorem ending?_message (h : payload ≠ LogRelay.sentinel) :
    (Polled.message payload).ending? = none := if_neg h

theorem ending?_ne_none_iff :
    polled.ending? ≠ none ↔ polled = .message LogRelay.sentinel ∨ polled = .closed := by
  cases polled with
  | message payload => simp [Polled.ending?]
  | idle => simp
  | closed => simp

theorem findSome?_ending?_ne_none_iff :
    polls.findSome? Polled.ending? ≠ none ↔
      ∃ polled ∈ polls, polled = .message LogRelay.sentinel ∨ polled = .closed := by
  simp [← ending?_ne_none_iff]

@[simp] theorem received_nil : received [] = [] := rfl

theorem received_of_ending (h : polled.ending? ≠ none) (polls : List Polled) :
    received (polled :: polls) = [] := by
  simp [received, h]

@[simp] theorem received_idle : received (.idle :: polls) = received polls := by
  rw [received, List.takeWhile_cons_of_pos (by simp), List.filterMap_cons]
  rfl

theorem received_message (h : payload ≠ LogRelay.sentinel) (polls : List Polled) :
    received (.message payload :: polls) = payload :: received polls := by
  rw [received, List.takeWhile_cons_of_pos (by simp [ending?_message h]), List.filterMap_cons]
  rfl

end Received

section Reports

variable {answer : List LogRecord → LogRecord → Outcome} {before : List LogRecord}
  {payload : List UInt8}

/-- A failed call makes one warning, and a call that does not fail makes none. -/
theorem length_failureEvents (r : LogRecord) (outcome : Outcome) :
    (failureEvents r outcome).length = if outcome = .taken then 0 else 1 := by
  cases outcome with
  | taken => rfl
  | rejected reason => rfl
  | panicked reason => rfl

theorem message_of_mem_failureEvents {r : LogRecord} {outcome : Outcome} {event : Event}
    (h : event ∈ failureEvents r outcome) : event.message = "Failed to forward log record" := by
  cases outcome with
  | taken => cases h
  | rejected reason => rw [List.mem_singleton.mp h]
  | panicked reason => rw [List.mem_singleton.mp h]

theorem filter_malformed_report :
    (report answer before payload).filter (·.message = "Dropping malformed log message") =
      (malformedReport? payload).toList := by
  unfold report malformedReport?
  split
  · next r hdecode =>
    have hnone : ∀ event ∈ failureEvents r (answer before r),
        ¬ event.message = "Dropping malformed log message" := by
      intro event hevent
      rw [message_of_mem_failureEvents hevent]
      decide
    simpa [hdecode] using hnone
  · next hdecode => simp [hdecode]
  · next e hdecode => simp [hdecode, malformedEvent]

theorem filter_failure_report :
    (report answer before payload).filter (·.message = "Failed to forward log record") =
      (Envelope.record? payload).toList.flatMap fun r => failureEvents r (answer before r) := by
  unfold report Envelope.record?
  split
  · next r hdecode =>
    simp only [hdecode, Option.toList_some, List.flatMap_singleton]
    exact List.filter_eq_self.mpr fun event hevent =>
      decide_eq_true (message_of_mem_failureEvents hevent)
  · next hdecode => simp [hdecode]
  · next e hdecode => simp [hdecode, malformedEvent]

theorem filter_malformed_reports (payloads : List (List UInt8)) :
    (reports answer before payloads).filter (·.message = "Dropping malformed log message") =
      payloads.filterMap malformedReport? := by
  induction payloads generalizing before with
  | nil => rfl
  | cons payload rest ih =>
      rw [reports, List.filter_append, filter_malformed_report, ih, List.filterMap_cons]
      cases malformedReport? payload with
      | none => rfl
      | some event => rfl

/-- The first call that messages make is the one before all the others. -/
theorem filter_failure_reports (payloads : List (List UInt8)) :
    let calls := payloads.filterMap Envelope.record?
    (reports answer before payloads).filter (·.message = "Failed to forward log record") =
      (List.zipWith failureEvents calls
        (calls.mapIdx fun i r => answer (before ++ calls.take i) r)).flatten := by
  induction payloads generalizing before with
  | nil => rfl
  | cons payload rest ih =>
      dsimp only at ih ⊢
      rw [reports, List.filter_append, filter_failure_report, ih, List.filterMap_cons]
      cases Envelope.record? payload with
      | none => simp
      | some r => simp [List.mapIdx_cons]

theorem length_flatten_failureEvents {calls : List LogRecord} {results : List Outcome}
    (h : results.length = calls.length) :
    (List.zipWith failureEvents calls results).flatten.length =
      results.countP (· ≠ .taken) := by
  induction calls generalizing results with
  | nil => simp_all
  | cons r calls ih =>
      cases results with
      | nil => cases h
      | cons outcome results =>
          simp only [List.length_cons, Nat.add_right_cancel_iff] at h
          simp only [List.zipWith_cons_cons, List.flatten_cons, List.length_append,
            length_failureEvents, ih h, List.countP_cons]
          by_cases houtcome : outcome = .taken
          · simp [houtcome]
          · simp [houtcome, Nat.add_comm]

end Reports

section Loop

variable {timeouts : Timeouts} {answer : List LogRecord → LogRecord → Outcome}
  {s : State (List LogRecord)}

theorem handle_answering {payload : List UInt8} (h : payload ≠ LogRelay.sentinel) :
    handle (.answering answer) s payload =
      ({ s with sink := s.sink ++ (Envelope.record? payload).toList },
        report answer s.sink payload) := by
  unfold handle report Envelope.record?
  split
  · next hdecode => exact absurd (Envelope.decode_eq_sentinel_iff.mp hdecode) h
  · next r hdecode => simp [hdecode, Sink.answering]
  · next e hdecode => simp [hdecode]

theorem react_of_ending {σ : Type} {sink : Sink σ} {s : State σ} {polled : Polled}
    {ending : Ending} (h : polled.ending? = some ending) :
    react sink s polled = ({ s with ending := some ending }, [ending.event]) := by
  cases polled with
  | message payload =>
      by_cases hpayload : payload = LogRelay.sentinel
      · subst hpayload
        obtain rfl : Ending.sentinel = ending := by simpa using h
        rw [react, handle_sentinel]
        rfl
      · rw [ending?_message hpayload] at h
        cases h
  | idle => cases h
  | closed => cases h; rfl

theorem run_append {σ : Type} {sink : Sink σ} {s : State σ} (front back : List Turn) :
    run timeouts sink s (front ++ back) =
      let first := run timeouts sink s front
      let last := run timeouts sink first.1 back
      (last.1, first.2 ++ last.2) := by
  induction front generalizing s with
  | nil => simp [run]
  | cons t rest ih => simp [run, ih]

theorem run_of_ended {σ : Type} {sink : Sink σ} {s : State σ} (h : s.ending ≠ none)
    (turns : List Turn) : run timeouts sink s turns = (s, []) := by
  induction turns with
  | nil => rfl
  | cons t rest ih => simp [run, turn_ended h, ih]

/-- What one turn adds is told by what its wait gives, and a turn that ends the loop is the last. -/
theorem run_answering (turns : List Turn) (hrunning : ∀ t ∈ turns, t.running = true)
    (h : s.ending = none) :
    let polls := turns.map Turn.polled
    let ending := polls.findSome? Polled.ending?
    run timeouts (.answering answer) s turns =
      ({ s with
          sink := s.sink ++ (received polls).filterMap Envelope.record?
          ending := ending },
        reports answer s.sink (received polls) ++ (ending.map Ending.event).toList) := by
  -- the state of the sink is the calls made before, so the induction is over all of them
  induction turns generalizing s with
  | nil => simp [run, reports, ← h]
  | cons t rest ih =>
      obtain ⟨running, now, polled⟩ := t
      obtain rfl : running = true := hrunning _ List.mem_cons_self
      have hrest : ∀ t ∈ rest, t.running = true := fun t ht =>
        hrunning t (List.mem_cons_of_mem _ ht)
      dsimp only at ih ⊢
      rw [run, turn_running h]
      simp only [List.map_cons, List.findSome?_cons]
      cases hending : polled.ending? with
      | some ending =>
          have hends : polled.ending? ≠ none := by simp [hending]
          rw [react_of_ending hending, run_of_ended (by simp), received_of_ending hends]
          simp [reports]
      | none =>
          cases polled with
          | idle => simp [react, ih hrest h]
          | closed => cases hending
          | message payload =>
              have hpayload : payload ≠ LogRelay.sentinel := by
                rintro rfl
                simp at hending
              have hnow := ih (s := { s with
                sink := s.sink ++ (Envelope.record? payload).toList }) hrest h
              simp only [react, handle_answering hpayload, hnow, received_message hpayload,
                reports, List.append_assoc, List.filterMap_cons]
              cases Envelope.record? payload with
              | none => simp
              | some r => simp

/-- The last report of a loop is no warning. -/
theorem filter_event {message : String}
    (h : ∀ ending : Ending, ¬ ending.event.message = message) (ending : Option Ending) :
    (ending.map Ending.event).toList.filter (·.message = message) = [] := by
  cases ending with
  | none => rfl
  | some ending => simp [h ending]

/-- The warnings of a loop tell which messages were no record and which calls failed. -/
theorem filter_run (timeouts : Timeouts) (answer : List LogRecord → LogRecord → Outcome)
    (turns : List Turn) (hrunning : ∀ t ∈ turns, t.running = true) :
    let payloads := received (turns.map Turn.polled)
    let calls := payloads.filterMap Envelope.record?
    let events := (run timeouts (.answering answer) { sink := [] } turns).2
    events.filter (·.message = "Dropping malformed log message") =
        payloads.filterMap malformedReport? ∧
      events.filter (·.message = "Failed to forward log record") =
        (List.zipWith failureEvents calls (outcomes answer calls)).flatten := by
  intro payloads calls events
  have hmalformed : ∀ ending : Ending,
      ¬ ending.event.message = "Dropping malformed log message" := by
    intro ending
    cases ending <;> decide
  have hfailure : ∀ ending : Ending,
      ¬ ending.event.message = "Failed to forward log record" := by
    intro ending
    cases ending <;> decide
  have hevents : events = reports answer [] payloads ++ _ :=
    congrArg Prod.snd (run_answering turns hrunning rfl)
  rw [hevents, List.filter_append, List.filter_append, filter_event hmalformed,
    filter_event hfailure, filter_malformed_reports, filter_failure_reports, List.append_nil,
    List.append_nil]
  exact ⟨rfl, rfl⟩

theorem sentinel_signal_iff {σ : Type} {s : State σ} {shared : Shared}
    (h : shared.sentinel = false) :
    (s.signal shared).sentinel = true ↔ s.ending = some .sentinel := by
  unfold State.signal
  split
  · next hending => simp [hending, h]
  · next ending hending =>
    cases ending <;> simp [hending, h, Ending.signal, Shared.acknowledge]

/-- The loop forwards what it should, over every beginning of an endless sequence of turns that see
the running flag set. The sink is called with the records of the messages before the sentinel; each
message that is no record and each failed call makes one warning; the loop ends with the sentinel,
or when nothing can come any more, and nothing that comes later changes what it did. -/
theorem run_forwards (timeouts : Timeouts) (answer : List LogRecord → LogRecord → Outcome)
    (turns : Nat → Turn) (hrunning : ∀ i, (turns i).running = true) :
    let result (n : Nat) :=
      run timeouts (.answering answer) { sink := [] } ((List.range n).map turns)
    (∀ n,
      let polls := (List.range n).map fun i => (turns i).polled
      let calls := (received polls).filterMap Envelope.record?
      let failures := (result n).2.filter (·.message = "Failed to forward log record")
      (result n).1.sink = calls ∧
      (result n).2.filter (·.message = "Dropping malformed log message") =
        (received polls).filterMap malformedReport? ∧
      failures = (List.zipWith failureEvents calls (outcomes answer calls)).flatten ∧
      failures.length = (outcomes answer calls).countP (· ≠ .taken) ∧
      (result n).1.ending = polls.findSome? Polled.ending? ∧
      (∀ shared : Shared, shared.sentinel = false →
        (((result n).1.signal shared).sentinel = true ↔
          polls.findSome? Polled.ending? = some .sentinel)) ∧
      ((result n).1.ending ≠ none → ∀ more,
        run timeouts (.answering answer) { sink := [] } ((List.range n).map turns ++ more) =
          result n)) ∧
    ((∃ n, (result n).1.ending ≠ none) ↔
      ∃ i, (turns i).polled = .message LogRelay.sentinel ∨ (turns i).polled = .closed) := by
  intro result
  have hall (n : Nat) : ∀ t ∈ (List.range n).map turns, t.running = true := by simp [hrunning]
  have hpolls (n : Nat) : ((List.range n).map turns).map Turn.polled =
      (List.range n).map fun i => (turns i).polled := List.map_map
  have hstate (n : Nat) : (result n).1 = _ :=
    congrArg Prod.fst (run_answering ((List.range n).map turns) (hall n) rfl)
  have hending (n : Nat) : (result n).1.ending =
      ((List.range n).map fun i => (turns i).polled).findSome? Polled.ending? := by
    rw [hstate n, hpolls n]
  refine ⟨fun n => ?_, ?_⟩
  · intro polls calls failures
    obtain ⟨hmalformed, hfailures⟩ := filter_run timeouts answer _ (hall n)
    rw [hpolls n] at hmalformed hfailures
    refine ⟨?_, hmalformed, hfailures, ?_, hending n, fun shared hshared => ?_,
      fun hended more => ?_⟩
    · rw [hstate n, hpolls n]
      rfl
    · exact (congrArg List.length hfailures).trans
        (length_flatten_failureEvents (by simp [outcomes]))
    · rw [sentinel_signal_iff hshared, hending n]
    · have hstays : run timeouts (.answering answer) (result n).1 more = ((result n).1, []) :=
        run_of_ended hended more
      rw [run_append]
      simp only [result] at hstays ⊢
      rw [hstays, List.append_nil]
  · simp only [hending, findSome?_ending?_ne_none_iff, List.mem_map, List.mem_range]
    constructor
    · rintro ⟨n, _, ⟨i, -, rfl⟩, hends⟩
      exact ⟨i, hends⟩
    · rintro ⟨i, hends⟩
      exact ⟨i + 1, _, ⟨i, Nat.lt_succ_self i, rfl⟩, hends⟩

/-- A sink that breaks down at its first call gets the next record all the same. -/
theorem run_forwards_after_panic :
    let r : LogRecord := { LogRecord.blank with name := "x", levelname := "NOTSET" }
    let payload : List UInt8 := [0x81, 0xa4, 0x6e, 0x61, 0x6d, 0x65, 0xa1, 0x78]
    let polls : List Polled :=
      [.message [0xc1], .message payload, .idle, .message payload, .message LogRelay.sentinel,
        .message payload]
    let turns (i : Nat) : Turn := ⟨true, i, polls.getD i .idle⟩
    let answer (before : List LogRecord) (_ : LogRecord) : Outcome :=
      if before.isEmpty then .panicked "broken" else .taken
    let result := run {} (.answering answer) { sink := [] } ((List.range 6).map turns)
    result.1.sink = [r, r] ∧ result.1.ending = some .sentinel ∧
      (result.2.filter (·.message = "Failed to forward log record")).length = 1 := by
  intro r payload polls turns answer result
  obtain ⟨hcalls, -, -, hfailures, hending, -⟩ :=
    (run_forwards {} answer turns fun _ => rfl).1 6
  have hreceived : received ((List.range 6).map fun i => (turns i).polled) =
      [[0xc1], payload, payload] := by decide
  have hrecords : [[0xc1], payload, payload].filterMap Envelope.record? = [r, r] := by rfl
  rw [hreceived, hrecords] at hcalls hfailures
  exact ⟨hcalls, hending.trans (by decide), hfailures⟩

end Loop

end Worker

end LogRelay
