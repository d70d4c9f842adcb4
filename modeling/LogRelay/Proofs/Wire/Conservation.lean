import LogRelay.Proofs.Wire.Connection
import LogRelay.Proofs.Wire.Segmentation
import LogRelay.Wire.Puller

/-!
# Messages on their way to the owner of a puller

Whatever the order in which the parts of a puller take their steps, the messages of a connection are
those that the owner took, those in the queue, the one that the reader holds and those that it has
not read yet, in this order; and the queue never holds more than it may.
-/

namespace LogRelay.Wire

/-- How a reader is that ends with a fault or without. -/
def Progress.ended : Option SystemFault → Progress
  | none => .done
  | some fault => .failed fault

theorem Progress.ended_ne_reading (fault : Option SystemFault) : ended fault ≠ .reading := by
  cases fault <;> exact Progress.noConfusion

namespace Inlet

/-- What holds of a connection at any time, given the messages that its reader handed on. -/
structure Sound (handed : List (List UInt8)) (c : Inlet) : Prop where
  /-- What was written are the messages handed on and those still to be delivered. -/
  whole : Splitter.unpack ⟨.length, c.written⟩ =
    (handed ++ c.connection.backlog, c.connection.ahead.2)
  /-- A reader that has ended holds no message, and no bytes can bring it one. -/
  ended : c.progress ≠ .reading → c.connection.held = none ∧
    (c.connection.splitter.stage = .refused ∨
      c.connection.splitter.advance? = none ∧ c.connection.incoming = [] ∧ c.closed = true)

variable {c d : Inlet} {handed : List (List UInt8)}

/-- A reader changes its connection only, and once it has ended nothing at all. -/
theorem read_cases (c : Inlet) (change : Connection → Connection) :
    c.progress = .reading ∧ c.read change = { c with connection := change c.connection } ∨
      c.progress ≠ .reading ∧ c.read change = c := by
  unfold read
  split
  · next hreading => exact .inl ⟨hreading, rfl⟩
  · next hdone => exact .inr ⟨by simp [hdone], rfl⟩
  · next hfailed => exact .inr ⟨by simp [hfailed], rfl⟩

theorem finish_eq (c : Inlet) : c.finish =
    if c.isOver then { c with progress := .ended c.connection.splitter.endFault? } else c := by
  unfold finish
  split
  · cases c.connection.splitter.endFault? <;> rfl
  · rfl

theorem sound_empty : Sound [] {} where
  whole := by
    change Splitter.unpack {} = ([] ++ Connection.backlog {}, Connection.ahead {} |>.2)
    rw [Splitter.unpack_of_stuck rfl, Connection.backlog_empty, Connection.whole_empty]
    rfl
  ended h := absurd rfl h

theorem Sound.write (h : c.Sound handed) (bytes : List UInt8) : (c.write bytes).Sound handed := by
  unfold Inlet.write
  split
  · exact h
  · next hopen =>
    have hunpack := Splitter.unpack_extend ⟨.length, c.written⟩ bytes
    rw [h.whole, Connection.backlog] at hunpack
    constructor
    · refine hunpack.trans ?_
      simp only [Connection.backlog, Connection.ahead_write, List.append_assoc]
      rfl
    · intro hended
      obtain ⟨hheld, hrefused | ⟨-, -, hclosed⟩⟩ := h.ended hended
      · exact ⟨hheld, .inl hrefused⟩
      · exact absurd hclosed hopen

theorem Sound.read {change : Connection → Connection} (h : c.Sound handed)
    (hbacklog : (change c.connection).backlog = c.connection.backlog)
    (hahead : (change c.connection).ahead.2 = c.connection.ahead.2) :
    (c.read change).Sound handed := by
  rcases c.read_cases change with ⟨hreading, hread⟩ | ⟨-, hread⟩
  · rw [hread]
    refine ⟨?_, fun hended => absurd hreading hended⟩
    rw [hbacklog, hahead]
    exact h.whole
  · rw [hread]
    exact h

theorem isOver_iff : c.isOver = true ↔
    c.connection.held = none ∧ c.connection.splitter.advance? = none ∧
      (c.connection.splitter.stage = .refused ∨
        c.closed = true ∧ c.connection.incoming = []) := by
  simp [isOver, and_assoc]

theorem Sound.finish (h : c.Sound handed) : c.finish.Sound handed := by
  rw [finish_eq]
  split
  · next hover =>
    obtain ⟨hheld, hstuck, hrefused | ⟨hclosed, hincoming⟩⟩ := isOver_iff.mp hover
    · exact ⟨h.whole, fun _ => ⟨hheld, .inl hrefused⟩⟩
    · exact ⟨h.whole, fun _ => ⟨hheld, .inr ⟨hstuck, hincoming, hclosed⟩⟩⟩
  · exact h

theorem Sound.step (h : c.Sound handed) (action : Action) : (c.step action).Sound handed := by
  cases action with
  | write bytes => exact h.write bytes
  | close =>
      refine ⟨h.whole, fun hended => ?_⟩
      obtain ⟨hheld, hrefused | ⟨hstuck, hincoming, -⟩⟩ := h.ended hended
      · exact ⟨hheld, .inl hrefused⟩
      · exact ⟨hheld, .inr ⟨hstuck, hincoming, rfl⟩⟩
  | arrive count =>
      apply h.read
      · exact c.connection.backlog_arrive count
      · exact congrArg Prod.snd (c.connection.ahead_arrive count)
  | advance =>
      apply h.read
      · exact c.connection.backlog_advance
      · exact c.connection.ahead_advance
  | finish => exact h.finish

/-- A message that leaves the reader is the next to be handed on. -/
theorem Sound.release {payload : List UInt8} (h : c.Sound handed)
    (hheld : c.connection.held = some payload) : c.release.Sound (handed ++ [payload]) := by
  constructor
  · refine h.whole.trans ?_
    simp only [Connection.backlog, hheld, Option.toList_some, List.append_assoc]
    rfl
  · intro hended
    obtain ⟨hnone, -⟩ := h.ended hended
    cases hnone.symm.trans hheld

theorem Sound.backlog_of_ended (h : c.Sound handed) (hended : c.progress ≠ .reading) :
    c.connection.backlog = [] := by
  obtain ⟨hheld, hrefused | ⟨hstuck, hincoming, -⟩⟩ := h.ended hended
  · simp [Connection.backlog, hheld, Connection.ahead_of_refused hrefused]
  · simp [Connection.backlog, Connection.ahead, hheld, hincoming, Splitter.unpack_of_stuck hstuck]

/-- A step leaves a reader where it is, or ends it as its splitter says. -/
theorem progress_step (c : Inlet) (action : Action) :
    (c.step action).progress = c.progress ∨
      (c.step action).progress = .ended c.connection.splitter.endFault? := by
  have hread (change : Connection → Connection) : (c.read change).progress = c.progress := by
    rcases c.read_cases change with ⟨-, hread⟩ | ⟨-, hread⟩ <;> rw [hread]
  cases action with
  | write bytes =>
      refine .inl ?_
      change (c.write bytes).progress = _
      unfold Inlet.write
      split <;> rfl
  | close => exact .inl rfl
  | arrive count => exact .inl (hread _)
  | advance => exact .inl (hread _)
  | finish =>
      change c.finish.progress = _ ∨ c.finish.progress = _
      rw [finish_eq]
      split
      · exact .inr rfl
      · exact .inl rfl

/-- What a step of a puller can make of a connection. -/
inductive Follows (c : Inlet) : Inlet → Prop
  | same : Follows c c
  | step (action : Action) : Follows c (c.step action)
  | release : Follows c c.release

/-- A reader that has ended does not begin again. -/
theorem Follows.progress_ne_reading (h : c.Follows d) (hended : c.progress ≠ .reading) :
    d.progress ≠ .reading := by
  cases h with
  | same => exact hended
  | step action =>
      rcases c.progress_step action with hsame | hnext
      · rwa [hsame]
      · rw [hnext]
        exact Progress.ended_ne_reading _
  | release => exact hended

end Inlet

namespace Puller

/-- The messages of one connection among others, in order. -/
def messagesOf (i : Nat) (messages : List (Nat × List UInt8)) : List (List UInt8) :=
  (messages.filter (·.1 = i)).map (·.2)

section MessagesOf

variable {i j : Nat} {messages : List (Nat × List UInt8)}

theorem messagesOf_append (i : Nat) (front back : List (Nat × List UInt8)) :
    messagesOf i (front ++ back) = messagesOf i front ++ messagesOf i back := by
  simp [messagesOf]

theorem messagesOf_singleton_self (payload : List UInt8) :
    messagesOf i [(i, payload)] = [payload] := by
  simp [messagesOf]

theorem messagesOf_singleton_of_ne (h : j ≠ i) (payload : List UInt8) :
    messagesOf i [(j, payload)] = [] := by
  simp [messagesOf, h]

theorem messagesOf_eq_nil (h : ∀ message ∈ messages, message.1 < i) :
    messagesOf i messages = [] := by
  have hnone : ∀ message ∈ messages, ¬ message.1 = i := fun message hmem =>
    Nat.ne_of_lt (h message hmem)
  simpa [messagesOf] using hnone

end MessagesOf

/-- The messages that readers handed on, in order. -/
def handed (s : Puller) : List (Nat × List UInt8) :=
  s.popped ++ s.queue.items

/-- What holds of a puller at any time. -/
structure Invariant (limit : Nat) (s : Puller) : Prop where
  capacity : s.queue.capacity = limit
  room : s.queue.items.length ≤ limit
  /-- Messages come from accepted connections. -/
  numbered : ∀ message ∈ s.handed, message.1 < s.inlets.length
  sound : ∀ (i : Nat) (c : Inlet), s.inlets[i]? = some c → c.Sound (messagesOf i s.handed)

variable {limit : Nat} {s t : Puller}

theorem invariant_start (depth : Nat) :
    Invariant (min (max 1 depth) Config.maxDepth) (start depth) where
  capacity := rfl
  room := Nat.zero_le _
  numbered := List.forall_mem_nil _
  sound i c h := by simp [start] at h

theorem step_of_dropped (h : s.dropped = true) (action : Action) : s.step action = s :=
  if_pos h

/-- While its owner keeps it, a puller takes every step. -/
theorem step_of_open (h : ¬ s.dropped = true) (action : Action) :
    s.step action = match action with
      | .accept => { s with inlets := s.inlets ++ [{}] }
      | .inlet i action => { s with inlets := s.inlets.modify i (·.step action) }
      | .push i => s.push i
      | .poll => s.poll
      | .drop => { s with dropped := true } :=
  if_neg h

/-! ## What each step preserves -/

theorem Invariant.accept (h : Invariant limit s) :
    Invariant limit { s with inlets := s.inlets ++ [{}] } where
  capacity := h.capacity
  room := h.room
  numbered message hmem := by
    have hlt := h.numbered message hmem
    simp only [List.length_append]
    omega
  sound i c hget := by
    rcases Nat.lt_or_ge i s.inlets.length with hold | hnew
    · rw [List.getElem?_append_left hold] at hget
      exact h.sound i c hget
    · rw [List.getElem?_append_right hnew, List.getElem?_singleton] at hget
      split at hget
      · next hfirst =>
        obtain rfl := Option.some.inj hget
        have hnone : messagesOf i s.handed = [] := messagesOf_eq_nil fun message hmem =>
          Nat.lt_of_lt_of_le (h.numbered message hmem) hnew
        change Inlet.Sound (messagesOf i s.handed) {}
        rw [hnone]
        exact Inlet.sound_empty
      · cases hget

theorem Invariant.inlet (h : Invariant limit s) (i : Nat) (action : Inlet.Action) :
    Invariant limit { s with inlets := s.inlets.modify i (·.step action) } where
  capacity := h.capacity
  room := h.room
  numbered message hmem := by
    rw [List.length_modify]
    exact h.numbered message hmem
  sound j c hget := by
    rw [List.getElem?_modify] at hget
    obtain ⟨before, hbefore, rfl⟩ := Option.map_eq_some_iff.mp hget
    have hsound := h.sound j before hbefore
    split
    · exact hsound.step action
    · exact hsound

/-- A push does nothing, or it hands on the message that a reader holds. -/
theorem push_cases (s : Puller) (i : Nat) :
    s.push i = s ∨ ∃ c payload, s.inlets[i]? = some c ∧ c.connection.held = some payload ∧
      s.queue.items.length < s.queue.capacity ∧
      s.push i = { s with
        inlets := s.inlets.modify i Inlet.release
        queue := { s.queue with items := s.queue.items ++ [(i, payload)] } } := by
  unfold push
  split
  · exact .inl rfl
  · next payload hheld =>
    obtain ⟨c, hget, hheld⟩ := Option.bind_eq_some_iff.mp hheld
    split
    · exact .inl rfl
    · next queue hpush =>
      obtain ⟨hroom, rfl⟩ := Queue.push?_eq_some_iff.mp hpush
      exact .inr ⟨c, payload, hget, hheld, hroom, rfl⟩

theorem Invariant.push (h : Invariant limit s) (i : Nat) : Invariant limit (s.push i) := by
  rcases s.push_cases i with hsame | ⟨c, payload, hget, hheld, hroom, hpush⟩
  · rw [hsame]
    exact h
  · have hhanded : (s.push i).handed = s.handed ++ [(i, payload)] := by
      simp [hpush, handed]
    have hlength : (s.push i).inlets.length = s.inlets.length := by simp [hpush]
    constructor
    · rw [hpush]
      exact h.capacity
    · have hcapacity := h.capacity
      simp only [hpush, List.length_append, List.length_singleton]
      omega
    · rw [hhanded, hlength]
      refine List.forall_mem_append.mpr ⟨h.numbered, List.forall_mem_singleton.mpr ?_⟩
      exact (List.getElem?_eq_some_iff.mp hget).1
    · intro j d hd
      rw [hpush, List.getElem?_modify] at hd
      obtain ⟨before, hbefore, rfl⟩ := Option.map_eq_some_iff.mp hd
      have hsound := h.sound j before hbefore
      rw [hhanded, messagesOf_append]
      split
      · next heq =>
        subst heq
        obtain rfl : c = before := Option.some.inj (hget.symm.trans hbefore)
        rw [messagesOf_singleton_self]
        exact hsound.release hheld
      · next hne =>
        rw [messagesOf_singleton_of_ne hne, List.append_nil]
        exact hsound

theorem inlets_poll (s : Puller) : s.poll.inlets = s.inlets := by
  unfold poll
  split
  · rfl
  · rfl

theorem handed_poll (s : Puller) : s.poll.handed = s.handed := by
  unfold poll
  split
  · rfl
  · next message queue hpop =>
    obtain ⟨hitems, -⟩ := Queue.pop?_eq_some_iff.mp hpop
    simp [handed, hitems]

/-- A step takes each connection on, or accepts a new one. -/
theorem getElem?_step (s : Puller) (i : Nat) (action : Action) :
    (∃ c d, s.inlets[i]? = some c ∧ (s.step action).inlets[i]? = some d ∧ c.Follows d) ∨
      s.inlets[i]? = none ∧
        ((s.step action).inlets[i]? = none ∨ (s.step action).inlets[i]? = some {}) := by
  have hmodify (k : Nat) (change : Inlet → Inlet) (hchange : ∀ c : Inlet, c.Follows (change c)) :
      (∃ c d, s.inlets[i]? = some c ∧ (s.inlets.modify k change)[i]? = some d ∧ c.Follows d) ∨
        s.inlets[i]? = none ∧ ((s.inlets.modify k change)[i]? = none ∨
          (s.inlets.modify k change)[i]? = some {}) := by
    rw [List.getElem?_modify]
    cases s.inlets[i]? with
    | none => exact .inr ⟨rfl, .inl rfl⟩
    | some c =>
        refine .inl ⟨c, if k = i then change c else c, rfl, rfl, ?_⟩
        split
        · exact hchange c
        · exact .same
  have hsame : (∃ c d, s.inlets[i]? = some c ∧ s.inlets[i]? = some d ∧ c.Follows d) ∨
      s.inlets[i]? = none ∧ (s.inlets[i]? = none ∨ s.inlets[i]? = some {}) := by
    cases s.inlets[i]? with
    | none => exact .inr ⟨rfl, .inl rfl⟩
    | some c => exact .inl ⟨c, c, rfl, rfl, .same⟩
  by_cases hdropped : s.dropped = true
  · rw [step_of_dropped hdropped]
    exact hsame
  · rw [step_of_open hdropped]
    cases action with
    | accept =>
        dsimp only
        rcases Nat.lt_or_ge i s.inlets.length with hold | hnew
        · rw [List.getElem?_append_left hold]
          exact hsame
        · refine .inr ⟨List.getElem?_eq_none hnew, ?_⟩
          rw [List.getElem?_append_right hnew, List.getElem?_singleton]
          split
          · exact .inr rfl
          · exact .inl rfl
    | inlet k action => exact hmodify k _ fun c => .step action
    | push k =>
        rcases s.push_cases k with hnothing | ⟨_, _, -, -, -, hpush⟩
        · dsimp only
          rw [hnothing]
          exact hsame
        · dsimp only
          rw [hpush]
          exact hmodify k _ fun c => .release
    | poll =>
        dsimp only
        rw [inlets_poll]
        exact hsame
    | drop => exact hsame

theorem Invariant.poll (h : Invariant limit s) : Invariant limit s.poll := by
  have hqueue : s.poll.queue.capacity = s.queue.capacity ∧
      s.poll.queue.items.length ≤ s.queue.items.length := by
    unfold Puller.poll
    split
    · exact ⟨rfl, Nat.le_refl _⟩
    · next message queue hpop =>
      obtain ⟨hitems, hcapacity⟩ := Queue.pop?_eq_some_iff.mp hpop
      simp [hitems, hcapacity]
  obtain ⟨hcapacity, hlength⟩ := hqueue
  constructor
  · rw [hcapacity, h.capacity]
  · exact Nat.le_trans hlength h.room
  · rw [handed_poll, inlets_poll]
    exact h.numbered
  · rw [handed_poll, inlets_poll]
    exact h.sound

theorem Invariant.step (h : Invariant limit s) (action : Action) :
    Invariant limit (s.step action) := by
  by_cases hdropped : s.dropped = true
  · rw [step_of_dropped hdropped]
    exact h
  · rw [step_of_open hdropped]
    cases action with
    | accept => exact h.accept
    | inlet i action => exact h.inlet i action
    | push i => exact h.push i
    | poll => exact h.poll
    | drop => exact ⟨h.capacity, h.room, h.numbered, h.sound⟩

theorem Invariant.run (h : Invariant limit s) (actions : List Action) :
    Invariant limit (s.run actions) := by
  induction actions generalizing s with
  | nil => exact h
  | cons action rest ih => exact ih (h.step action)

end Puller

end LogRelay.Wire
