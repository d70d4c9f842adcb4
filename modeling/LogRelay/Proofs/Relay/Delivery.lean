import LogRelay.Proofs.Wire.Connection
import LogRelay.Proofs.Wire.Dispatch
import LogRelay.Proofs.Worker.Running
import LogRelay.Relay.Pipeline
import Mathlib.Algebra.Ring.Nat

/-!
# Delivery from a writer to a sink

Whatever the order in which the parts take their steps, the messages that the writer got through are
those that the worker took, those in the queue and those that the connection still delivers, in this
order. So the records that the sink keeps are at any time the first of those that it is to be given,
and all of them once no part can do anything more; and that moment comes, since every step that
changes anything makes a number smaller.
-/

namespace LogRelay

namespace Pipeline

/-- The message of a call that was answered with success. -/
def acceptedMessage? (call : Dispatch × SendResult) : Option (List UInt8) :=
  match call.2 with
  | .sent => call.1.message.toOption
  | _ => none

/-- The messages of the calls that were answered with success, in order. -/
def accepted (s : Pipeline) : List (List UInt8) :=
  s.made.filterMap acceptedMessage?

/-- The messages of the calls made so far that a frame can hold, in order. -/
def attempted (s : Pipeline) : List (List UInt8) :=
  s.made.filterMap fun call => call.1.framed?

/-- What holds at any time of a pipeline whose writer makes the given calls. -/
structure Invariant (calls : List Dispatch) (s : Pipeline) : Prop where
  /-- Calls are made in order. -/
  inOrder : s.made.map Prod.fst ++ s.pending = calls
  /-- A call gets its own answer, except that a connection may break after the worker has ended. -/
  answered : ∀ call ∈ s.made, call.1.Answers call.2 ∨
    s.loop.ending ≠ none ∧ call.1.Answers .sent ∧ ∃ fault, call.2 = .refused (.send fault)
  /-- Only the frames of accepted messages were written. -/
  written : s.written = Wire.frames s.accepted
  /-- The bytes ahead of the reader are whole frames. -/
  whole : s.connection.Whole
  /-- There is room in an empty queue. -/
  room : 0 < s.queue.capacity
  /-- While the worker runs, each accepted message is with the worker, in the queue or on the
  connection. -/
  running : s.loop.ending = none → ∃ taken, sentinel ∉ taken ∧
    s.loop.sink.records = delivered taken ∧
    s.accepted = taken ++ (s.queue.items ++ s.connection.backlog)
  /-- It ends with a sentinel, before which no call was lost, and then the sink has been
  given all. -/
  ended : s.loop.ending ≠ none → ∃ front, sentinel ∈ front ∧ front <+: s.accepted ∧
    front <+: s.attempted ∧ s.loop.sink.records = delivered front

theorem invariant_start (depth : Nat) (calls : List Dispatch) :
    Invariant calls (start depth calls) where
  inOrder := rfl
  answered := List.forall_mem_nil _
  written := rfl
  whole := Wire.Connection.whole_empty
  room := by
    change 0 < min (max 1 depth) Config.maxDepth
    have hmax : 0 < Config.maxDepth := by decide
    omega
  running _ := by
    refine ⟨[], nofun, rfl, ?_⟩
    change [] = [] ++ ([] ++ Wire.Connection.backlog {})
    rw [Wire.Connection.backlog_empty]
    rfl
  ended h := absurd rfl h

/-! ## What each step preserves -/

section

variable {calls : List Dispatch} {s : Pipeline}

/-- A call that gets its own answer gets its message through if a frame can hold it. -/
theorem acceptedMessage?_of_answers {call : Dispatch × SendResult} (h : call.1.Answers call.2) :
    acceptedMessage? call = call.1.framed? := by
  obtain ⟨d, result⟩ := call
  cases h with
  | malformed message => exact (Dispatch.framed?_of_malformed message).symm
  | long message long => exact (Dispatch.framed?_of_long message long).symm
  | short message short =>
      rw [Dispatch.framed?_eq_some_iff.mpr ⟨message, short⟩]
      simp [acceptedMessage?, message, Except.toOption]

theorem filterMap_append_singleton {α β : Type} (f : α → Option β) (as : List α) (a : α) :
    (as ++ [a]).filterMap f = as.filterMap f ++ (f a).toList := by
  rw [List.filterMap_append, List.filterMap_cons, List.filterMap_nil]
  cases f a with
  | none => rfl
  | some b => rfl

theorem call_of_cons {d : Dispatch} {rest : List Dispatch} (h : s.pending = d :: rest) :
    s.call = { s with
      pending := rest
      made := s.made ++ [(d, d.send.1)]
      written := s.written ++ Wire.frames d.framed?.toList
      connection := s.connection.write (Wire.frames d.framed?.toList) } := by
  rw [call, h]
  dsimp only
  rw [d.bytes_eq_frames]

theorem Invariant.call (h : Invariant calls s) : Invariant calls s.call := by
  cases hpending : s.pending with
  | nil =>
      rw [Pipeline.call, hpending]
      exact h
  | cons d rest =>
      have hanswers : d.Answers d.send.1 := d.send_eq.1
      have haccepted : s.call.accepted = s.accepted ++ d.framed?.toList := by
        rw [call_of_cons hpending, accepted, filterMap_append_singleton,
          acceptedMessage?_of_answers hanswers]
        rfl
      have hattempted : s.call.attempted = s.attempted ++ d.framed?.toList := by
        rw [call_of_cons hpending, attempted, filterMap_append_singleton]
        rfl
      obtain ⟨hbacklog, hwhole⟩ := Wire.Connection.write_frames h.whole
        fun payload hmem => (Dispatch.framed?_eq_some_iff.mp (Option.mem_toList.mp hmem)).2
      have hcall := call_of_cons hpending
      constructor
      · rw [← h.inOrder, hpending, hcall, List.map_append, List.append_assoc]
        rfl
      · rw [hcall]
        exact List.forall_mem_append.mpr
          ⟨h.answered, List.forall_mem_singleton.mpr (.inl hanswers)⟩
      · rw [haccepted, hcall, Wire.frames_append, ← h.written]
      · rw [hcall]
        exact hwhole
      · rw [hcall]
        exact h.room
      · intro hrunning
        rw [hcall] at hrunning
        obtain ⟨taken, hnone, hrecords, hall⟩ := h.running hrunning
        refine ⟨taken, hnone, ?_, ?_⟩
        · rw [hcall]
          exact hrecords
        · rw [haccepted, hall, hcall]
          change _ = taken ++ (s.queue.items ++ (s.connection.write _).backlog)
          rw [hbacklog, List.append_assoc, List.append_assoc]
      · intro hended
        rw [hcall] at hended
        obtain ⟨front, hmem, hfront, hown, hrecords⟩ := h.ended hended
        refine ⟨front, hmem, ?_, ?_, ?_⟩
        · rw [haccepted]
          exact hfront.trans (List.prefix_append ..)
        · rw [hattempted]
          exact hown.trans (List.prefix_append ..)
        · rw [hcall]
          exact hrecords

theorem Invariant.lose (h : Invariant calls s) (fault : SystemFault) :
    Invariant calls (s.lose fault) := by
  unfold Pipeline.lose
  split
  · next ending d rest hending hpending =>
    split
    · next sent? hsend =>
      have hresult : acceptedMessage? (d, SendResult.refused (.send fault)) = none := rfl
      have haccepted :
          (s.made ++ [(d, SendResult.refused (.send fault))]).filterMap acceptedMessage? =
            s.accepted := by
        rw [filterMap_append_singleton, hresult, Option.toList_none, List.append_nil]
        rfl
      have hne : s.loop.ending ≠ none := by
        rw [hending]
        exact nofun
      constructor
      · rw [← h.inOrder, hpending, List.map_append, List.append_assoc]
        rfl
      · refine List.forall_mem_append.mpr ⟨h.answered, List.forall_mem_singleton.mpr (.inr ?_)⟩
        have hanswers := d.send_eq.1
        rw [hsend] at hanswers
        exact ⟨hne, hanswers, fault, rfl⟩
      · rw [accepted, haccepted]
        exact h.written
      · exact h.whole
      · exact h.room
      · exact fun hrunning => absurd hrunning hne
      · intro hended
        obtain ⟨front, hmem, hfront, hown, hrecords⟩ := h.ended hended
        refine ⟨front, hmem, ?_, ?_, hrecords⟩
        · rw [accepted, haccepted]
          exact hfront
        · rw [attempted, filterMap_append_singleton]
          exact hown.trans (List.prefix_append ..)
    · exact h
  · exact h

theorem Invariant.connection {c : Wire.Connection} (h : Invariant calls s)
    (hbacklog : c.backlog = s.connection.backlog) (hahead : c.ahead.2 = s.connection.ahead.2) :
    Invariant calls { s with connection := c } := by
  refine { h with whole := hahead.trans h.whole, running := fun hrunning => ?_ }
  obtain ⟨taken, hnone, hrecords, hall⟩ := h.running hrunning
  refine ⟨taken, hnone, hrecords, ?_⟩
  change s.accepted = taken ++ (s.queue.items ++ c.backlog)
  rw [hbacklog, hall]

theorem Invariant.push (h : Invariant calls s) : Invariant calls s.push := by
  unfold Pipeline.push
  split
  · exact h
  · next payload hheld =>
    split
    · exact h
    · next queue hpush =>
      obtain ⟨-, rfl⟩ := Wire.Queue.push?_eq_some_iff.mp hpush
      refine { h with running := fun hrunning => ?_ }
      obtain ⟨taken, hnone, hrecords, hall⟩ := h.running hrunning
      refine ⟨taken, hnone, hrecords, ?_⟩
      change s.accepted = taken ++ ((s.queue.items ++ [payload]) ++ ([] ++ s.connection.ahead.1))
      rw [hall, Wire.Connection.backlog, hheld, List.append_assoc]
      rfl

/-- A turn that gets nothing changes nothing. -/
theorem turn_idle (timeouts : Timeouts) (s : Pipeline) (now : Nat) :
    s.turn timeouts now .idle = s := by
  unfold turn
  by_cases hending : s.loop.ending = none
  · rw [Worker.turn_running hending]
    rfl
  · rw [Worker.turn_ended hending]

/-- While the worker runs, no call is lost. -/
theorem Invariant.answered_of_running (h : Invariant calls s) (hrunning : s.loop.ending = none) :
    ∀ call ∈ s.made, call.1.Answers call.2 := by
  intro call hmem
  rcases h.answered call hmem with hown | ⟨hended, -⟩
  · exact hown
  · exact absurd hrunning hended

theorem Invariant.accepted_eq_attempted (h : Invariant calls s) (hrunning : s.loop.ending = none) :
    s.accepted = s.attempted := by
  refine List.filterMap_congr fun call hmem => ?_
  exact acceptedMessage?_of_answers (h.answered_of_running hrunning call hmem)

theorem Invariant.take (h : Invariant calls s) (timeouts : Timeouts) (now : Nat) :
    Invariant calls (s.take timeouts now) := by
  unfold Pipeline.take
  split
  · next payload queue hending hpop =>
    obtain ⟨hitems, hcapacity⟩ := Wire.Queue.pop?_eq_some_iff.mp hpop
    obtain ⟨taken, hnone, hrecords, hall⟩ := h.running hending
    unfold turn
    rw [Worker.turn_running hending, Worker.react]
    by_cases hpayload : payload = sentinel
    · subst hpayload
      rw [Worker.handle_sentinel]
      refine { h with
        answered := fun call hmem => .inl (h.answered_of_running hending call hmem)
        room := hcapacity ▸ h.room
        running := nofun
        ended := fun _ => ⟨s.accepted, ?_, List.prefix_rfl, ?_, ?_⟩ }
      · rw [hall, hitems]
        simp
      · change s.accepted <+: s.attempted
        exact h.accepted_eq_attempted hending ▸ List.prefix_rfl
      · change s.loop.sink.records = delivered s.accepted
        rw [hall, hitems, delivered_append_of_not_mem hnone, List.cons_append,
          delivered_sentinel_cons, List.append_nil]
        exact hrecords
    · rw [Worker.handle_memory hpayload]
      refine { h with
        room := hcapacity ▸ h.room
        running := fun _ => ⟨taken ++ [payload], ?_, ?_, ?_⟩
        ended := fun hended => absurd hending hended }
      · simp [hnone, Ne.symm hpayload]
      · change s.loop.sink.records ++ _ = _
        rw [delivered_append_of_not_mem hnone, hrecords, delivered_cons hpayload]
        exact congrArg _ (List.append_nil _).symm
      · change s.accepted = taken ++ [payload] ++ (queue.items ++ s.connection.backlog)
        rw [hall, hitems, List.append_assoc]
        rfl
  · exact h

theorem Invariant.step (h : Invariant calls s) (timeouts : Timeouts) (action : Action) :
    Invariant calls (s.step timeouts action) := by
  cases action with
  | call => exact h.call
  | lose fault => exact h.lose fault
  | arrive count =>
      exact h.connection (s.connection.backlog_arrive count)
        (congrArg Prod.snd (s.connection.ahead_arrive count))
  | advance => exact h.connection s.connection.backlog_advance s.connection.ahead_advance
  | push => exact h.push
  | take now => exact h.take timeouts now
  | idle now =>
      change Invariant calls (s.turn timeouts now .idle)
      rw [turn_idle]
      exact h

theorem Invariant.run (h : Invariant calls s) (timeouts : Timeouts) (schedule : List Action) :
    Invariant calls (s.run timeouts schedule) := by
  induction schedule generalizing s with
  | nil => exact h
  | cons action rest ih => exact ih (h.step timeouts action)

end

/-! ## Coming to rest -/

/-- A number that every step makes smaller. A call counts for itself and for the bytes that it may
write. -/
def weight (s : Pipeline) : Nat :=
  (s.pending.map fun d => 1 + 7 * (Transmission.ofDispatches [d]).bytes.length).sum +
    s.connection.weight + s.queue.items.length

theorem weight_call (s : Pipeline) : s.call = s ∨ s.call.weight < s.weight := by
  unfold call
  split
  · exact .inl rfl
  · next d rest hpending =>
    refine .inr ?_
    unfold weight
    rw [hpending, List.map_cons, List.sum_cons]
    dsimp only
    rw [Wire.Connection.weight_write]
    omega

theorem weight_lose (s : Pipeline) (fault : SystemFault) :
    s.lose fault = s ∨ (s.lose fault).weight < s.weight := by
  unfold lose
  split
  · next ending d rest hending hpending =>
    split
    · refine .inr ?_
      unfold weight
      rw [hpending, List.map_cons, List.sum_cons]
      dsimp only
      omega
    · exact .inl rfl
  · exact .inl rfl

theorem weight_push (s : Pipeline) : s.push = s ∨ s.push.weight < s.weight := by
  unfold push
  split
  · exact .inl rfl
  · next payload hheld =>
    split
    · exact .inl rfl
    · next queue hpush =>
      obtain ⟨-, rfl⟩ := Wire.Queue.push?_eq_some_iff.mp hpush
      refine .inr ?_
      unfold weight Wire.Connection.weight
      rw [hheld]
      dsimp only
      rw [List.length_append]
      simp only [List.length_singleton, Option.toList_none, Option.toList_some, List.length_nil]
      omega

theorem weight_take (timeouts : Timeouts) (s : Pipeline) (now : Nat) :
    s.take timeouts now = s ∨ (s.take timeouts now).weight < s.weight := by
  unfold take
  split
  · next payload queue hending hpop =>
    obtain ⟨hitems, -⟩ := Wire.Queue.pop?_eq_some_iff.mp hpop
    refine .inr ?_
    unfold weight turn
    rw [hitems, List.length_cons]
    dsimp only
    omega
  · exact .inl rfl

theorem weight_connection {s : Pipeline} {c : Wire.Connection}
    (h : c = s.connection ∨ c.weight < s.connection.weight) :
    { s with connection := c } = s ∨ weight { s with connection := c } < s.weight := by
  rcases h with rfl | h
  · exact .inl rfl
  · refine .inr ?_
    unfold weight
    dsimp only
    omega

theorem weight_step (timeouts : Timeouts) (s : Pipeline) (action : Action) :
    s.step timeouts action = s ∨ (s.step timeouts action).weight < s.weight := by
  cases action with
  | call => exact s.weight_call
  | lose fault => exact s.weight_lose fault
  | arrive count => exact weight_connection (s.connection.weight_arrive count)
  | advance => exact weight_connection s.connection.weight_advance
  | push => exact s.weight_push
  | take now => exact s.weight_take timeouts now
  | idle now => exact .inl (turn_idle timeouts s now)

/-- No part can do anything more. -/
def Stuck (timeouts : Timeouts) (s : Pipeline) : Prop :=
  ∀ action, s.step timeouts action = s

/-- Every run can be continued until no part can do anything more. -/
theorem exists_stuck (timeouts : Timeouts) (s : Pipeline) :
    ∃ more, (s.run timeouts more).Stuck timeouts := by
  induction hweight : s.weight using Nat.strongRecOn generalizing s with
  | ind n ih =>
      by_cases hstuck : s.Stuck timeouts
      · exact ⟨[], hstuck⟩
      · obtain ⟨action, hchange⟩ := not_forall.mp hstuck
        have hlower := (weight_step timeouts s action).resolve_left hchange
        obtain ⟨more, hmore⟩ := ih _ (hweight ▸ hlower) (s.step timeouts action) rfl
        exact ⟨action :: more, hmore⟩

section

variable {calls : List Dispatch} {s : Pipeline} {timeouts : Timeouts}

theorem pending_of_stuck (stuck : s.call = s) : s.pending = [] := by
  cases hpending : s.pending with
  | nil => rfl
  | cons d rest =>
      rw [Pipeline.call, hpending] at stuck
      have hsame : rest = s.pending := congrArg pending stuck
      rw [hpending] at hsame
      exact absurd (congrArg List.length hsame) (Nat.ne_of_lt (Nat.lt_succ_self _))

theorem items_of_stuck (hending : s.loop.ending = none) (stuck : s.take timeouts 0 = s) :
    s.queue.items = [] := by
  cases hpop : s.queue.pop? with
  | none =>
      unfold Wire.Queue.pop? at hpop
      split at hpop
      · assumption
      · cases hpop
  | some found =>
      obtain ⟨payload, next⟩ := found
      obtain ⟨hitems, -⟩ := Wire.Queue.pop?_eq_some_iff.mp hpop
      rw [Pipeline.take, hending, hpop] at stuck
      have hsame : next = s.queue := congrArg queue stuck
      rw [hsame] at hitems
      exact absurd (congrArg List.length hitems) (Nat.ne_of_lt (Nat.lt_succ_self _))

theorem held_of_stuck (hroom : 0 < s.queue.capacity) (hitems : s.queue.items = [])
    (stuck : s.push = s) : s.connection.held = none := by
  cases hheld : s.connection.held with
  | none => rfl
  | some payload =>
      have hpush : s.queue.push? payload =
          some { s.queue with items := s.queue.items ++ [payload] } := by
        rw [Wire.Queue.push?, hitems]
        exact if_pos hroom
      rw [Pipeline.push, hheld] at stuck
      dsimp only at stuck
      rw [hpush] at stuck
      have hsame : none = s.connection.held := congrArg (·.connection.held) stuck
      cases hsame.trans hheld

theorem Invariant.records_of_ended (h : Invariant calls s) (hended : s.loop.ending ≠ none) :
    s.loop.sink.records = delivered s.accepted ∧ s.loop.sink.records = delivered s.attempted := by
  obtain ⟨front, hmem, ⟨lateAccepted, haccepted⟩, ⟨lateOwn, hown⟩, hrecords⟩ := h.ended hended
  rw [← haccepted, ← hown, delivered_append_of_mem hmem, delivered_append_of_mem hmem]
  exact ⟨hrecords, hrecords⟩

/-- Where no part can do anything more, all calls are made and the sink has been given all. -/
theorem Invariant.done (h : Invariant calls s) (stuck : s.Stuck timeouts) :
    s.pending = [] ∧ s.loop.sink.records = delivered s.accepted ∧
      s.loop.sink.records = delivered (calls.filterMap Dispatch.framed?) := by
  have hpending := pending_of_stuck (stuck .call)
  have hattempted : s.attempted = calls.filterMap Dispatch.framed? := by
    rw [← h.inOrder, hpending, List.append_nil, List.filterMap_map]
    rfl
  refine ⟨hpending, ?_⟩
  rw [← hattempted]
  by_cases hending : s.loop.ending = none
  · have hitems := items_of_stuck hending (stuck (.take 0))
    have hheld := held_of_stuck h.room hitems (stuck .push)
    have hbacklog : s.connection.backlog = [] :=
      Wire.Connection.backlog_of_stuck hheld (congrArg Pipeline.connection (stuck .advance))
        (congrArg Pipeline.connection (stuck (.arrive 1)))
    obtain ⟨taken, hnone, hrecords, hall⟩ := h.running hending
    rw [hitems, hbacklog, List.append_nil, List.append_nil] at hall
    rw [← h.accepted_eq_attempted hending, hall]
    exact ⟨hrecords, hrecords⟩
  · exact h.records_of_ended hending

theorem Invariant.records_prefix (h : Invariant calls s) :
    s.loop.sink.records <+: delivered s.accepted := by
  by_cases hending : s.loop.ending = none
  · obtain ⟨taken, hnone, hrecords, hall⟩ := h.running hending
    rw [hall, delivered_append_of_not_mem hnone, hrecords]
    exact List.prefix_append ..
  · exact (h.records_of_ended hending).1 ▸ List.prefix_rfl

theorem Invariant.refused (h : Invariant calls s) {call : Dispatch × SendResult}
    (hmem : call ∈ s.made) {payload : List UInt8} (hmessage : call.1.message = .ok payload)
    (hlong : Wire.maxFrameLength < payload.length) :
    call.2 = .refused (.send .oversizedFrame) := by
  rcases h.answered call hmem with hown | ⟨-, hsent, -⟩
  · exact hown.of_long hmessage hlong
  · cases hsent.of_long hmessage hlong

end

end Pipeline

end LogRelay
