import LogRelay.Proofs.Wire.Isolation
import Mathlib.Algebra.Ring.Nat

/-!
# Nothing is lost on the way to the owner of a puller

As long as the owner has not got all messages of a connection, the owner or the reader of that
connection can take a step, and each such step makes a number smaller. So from any state that a
puller can reach, its readers and its owner can get all messages through.
-/

namespace LogRelay.Wire.Puller

variable {limit : Nat} {s : Puller}

/-! ## No part waits for nothing -/

theorem poll_ne (h : s.queue.items ≠ []) : s.poll ≠ s := by
  cases hitems : s.queue.items with
  | nil => exact absurd hitems h
  | cons message rest =>
      have hpop : s.queue.pop? = some (message, { s.queue with items := rest }) :=
        Queue.pop?_eq_some_iff.mpr ⟨hitems, rfl⟩
      intro hsame
      have hpopped : s.popped ++ [message] = s.popped := by
        have h := congrArg Puller.popped hsame
        rwa [poll, hpop] at h
      simp at hpopped

theorem modify_ne {i : Nat} {c : Inlet} {change : Inlet → Inlet} (hget : s.inlets[i]? = some c)
    (hchange : change c ≠ c) : { s with inlets := s.inlets.modify i change } ≠ s := by
  intro hsame
  have h := congrArg (fun u : Puller => u.inlets[i]?) hsame
  simp only [List.getElem?_modify, hget, if_true] at h
  exact hchange (Option.some.inj h)

theorem push_ne {i : Nat} {c : Inlet} {payload : List UInt8} (hget : s.inlets[i]? = some c)
    (hheld : c.connection.held = some payload) (hroom : s.queue.items.length < s.queue.capacity) :
    s.push i ≠ s := by
  have hpush : s.queue.push? (i, payload) =
      some { s.queue with items := s.queue.items ++ [(i, payload)] } :=
    Queue.push?_eq_some_iff.mpr ⟨hroom, rfl⟩
  intro hsame
  have hitems : s.queue.items ++ [(i, payload)] = s.queue.items := by
    have h := congrArg (fun u : Puller => u.queue.items) hsame
    simpa only [push, hget, Option.bind_some, hheld, hpush] using h
  simp at hitems

/-- While the queue has room, a reader can go on if it holds a message, can work on the bytes it has
or can get another one. -/
theorem exists_step_of_moves {i : Nat} {c : Inlet} (hdropped : ¬ s.dropped = true)
    (hroom : s.queue.items.length < s.queue.capacity) (hget : s.inlets[i]? = some c)
    (hreading : c.progress = .reading)
    (hmoves : c.connection.held ≠ none ∨ c.connection.advance ≠ c.connection ∨
      c.connection.arrive 1 ≠ c.connection) :
    ∃ action ∈ [Action.push i, .inlet i .advance, .inlet i (.arrive 1)], s.step action ≠ s := by
  have hread (change : Connection → Connection) (hchange : change c.connection ≠ c.connection) :
      c.read change ≠ c := by
    intro hsame
    rw [Inlet.read, hreading] at hsame
    exact hchange (congrArg Inlet.connection hsame)
  rcases hmoves with hheld | hadvance | harrive
  · obtain ⟨payload, hheld⟩ := Option.ne_none_iff_exists'.mp hheld
    refine ⟨.push i, by simp, ?_⟩
    rw [step_of_open hdropped]
    exact push_ne hget hheld hroom
  · refine ⟨.inlet i .advance, by simp, ?_⟩
    rw [step_of_open hdropped]
    exact modify_ne hget (hread _ hadvance)
  · refine ⟨.inlet i (.arrive 1), by simp, ?_⟩
    rw [step_of_open hdropped]
    exact modify_ne hget (hread _ harrive)

/-- While the queue has room, a reader whose connection still delivers something can go on. -/
theorem Invariant.exists_reader_step {i : Nat} {c : Inlet} (h : Invariant limit s)
    (hdropped : ¬ s.dropped = true) (hroom : s.queue.items.length < s.queue.capacity)
    (hget : s.inlets[i]? = some c) (hbacklog : c.connection.backlog ≠ []) :
    ∃ action ∈ [Action.push i, .inlet i .advance, .inlet i (.arrive 1)], s.step action ≠ s := by
  have hreading : c.progress = .reading := Decidable.byContradiction fun hended =>
    hbacklog ((h.sound i c hget).backlog_of_ended hended)
  refine exists_step_of_moves hdropped hroom hget hreading ?_
  by_cases hheld : c.connection.held = none
  · by_cases hadvance : c.connection.advance = c.connection
    · exact .inr (.inr fun harrive => hbacklog (Connection.backlog_of_stuck hheld hadvance harrive))
    · exact .inr (.inl hadvance)
  · exact .inl hheld

/-- The messages of a connection are in four places, in order. -/
theorem Invariant.framing (h : Invariant limit s) {i : Nat} {c : Inlet}
    (hget : s.inlets[i]? = some c) :
    IsFraming c.written (messagesOf i s.popped ++ messagesOf i s.queue.items ++
      c.connection.held.toList ++ c.connection.ahead.1) := by
  have hunpack := isFraming_unpack c.written
  rw [(h.sound i c hget).whole, handed, messagesOf_append, Connection.backlog] at hunpack
  simpa only [List.append_assoc] using hunpack

/-- Until the owner has got all messages of a connection, it or the reader can go on. -/
theorem Invariant.exists_step (h : Invariant limit s) (hlimit : 0 < limit)
    (hdropped : ¬ s.dropped = true) {i : Nat} {c : Inlet} (hget : s.inlets[i]? = some c)
    (hmissing : ¬ IsFraming c.written (messagesOf i s.popped)) :
    ∃ action ∈ [.poll, .push i, .inlet i .advance, .inlet i (.arrive 1)], s.step action ≠ s := by
  by_cases hitems : s.queue.items = []
  · have hroom : s.queue.items.length < s.queue.capacity := by
      rwa [hitems, h.capacity]
    have hbacklog : c.connection.backlog ≠ [] := by
      intro hnone
      obtain ⟨hheld, hahead⟩ := List.append_eq_nil_iff.mp hnone
      have hall := h.framing hget
      rw [hitems, hheld, hahead] at hall
      exact hmissing (by simpa [messagesOf] using hall)
    obtain ⟨action, hmem, hne⟩ := h.exists_reader_step hdropped hroom hget hbacklog
    exact ⟨action, List.mem_cons_of_mem _ hmem, hne⟩
  · refine ⟨.poll, List.mem_cons_self, ?_⟩
    rw [step_of_open hdropped]
    exact poll_ne hitems

/-! ## Everything can be delivered -/

/-- A step by which a reader or the owner moves messages on. -/
def Action.Delivers : Action → Prop
  | .inlet _ (.arrive _) | .inlet _ .advance | .push _ | .poll => True
  | .inlet _ (.write _) | .inlet _ .close | .inlet _ .finish | .accept | .drop => False

/-- A number that every step of a reader or of the owner makes smaller. -/
def weight (s : Puller) : Nat :=
  (s.inlets.map fun c => c.connection.weight).sum + s.queue.items.length

theorem sum_modify {cs : List Inlet} {i : Nat} {c : Inlet} (hget : cs[i]? = some c)
    (price : Inlet → Nat) (change : Inlet → Inlet) :
    ((cs.modify i change).map price).sum + price c = (cs.map price).sum + price (change c) := by
  induction cs generalizing i with
  | nil => cases hget
  | cons head rest ih =>
      cases i with
      | zero =>
          obtain rfl : head = c := by simpa using hget
          simp only [List.modify_zero_cons, List.map_cons, List.sum_cons]
          omega
      | succ i =>
          have hrest := ih (i := i) (by simpa using hget)
          simp only [List.modify_succ_cons, List.map_cons, List.sum_cons]
          omega

theorem weight_read {c : Inlet} {change : Connection → Connection}
    (h : change c.connection = c.connection ∨
      (change c.connection).weight < c.connection.weight) :
    c.read change = c ∨ (c.read change).connection.weight < c.connection.weight := by
  rcases c.read_cases change with ⟨-, hread⟩ | ⟨-, hread⟩
  · rw [hread]
    rcases h with hsame | hless
    · rw [hsame]
      exact .inl rfl
    · exact .inr hless
  · exact .inl hread

theorem modify_eq_self {cs : List Inlet} {i : Nat} {change : Inlet → Inlet}
    (h : ∀ c, cs[i]? = some c → change c = c) : cs.modify i change = cs := by
  apply List.ext_getElem?
  intro j
  rw [List.getElem?_modify]
  cases hget : cs[j]? with
  | none => rfl
  | some c =>
      by_cases hij : i = j
      · simp [hij, h c (hij ▸ hget)]
      · simp [hij]

theorem weight_modify {i : Nat} {change : Inlet → Inlet}
    (h : ∀ c, change c = c ∨ (change c).connection.weight < c.connection.weight) :
    { s with inlets := s.inlets.modify i change } = s ∨
      weight { s with inlets := s.inlets.modify i change } < s.weight := by
  cases hget : s.inlets[i]? with
  | none =>
      have hself : s.inlets.modify i change = s.inlets :=
        modify_eq_self fun c hc => by cases hget.symm.trans hc
      exact .inl (by rw [hself])
  | some c =>
      rcases h c with hsame | hless
      · have hself : s.inlets.modify i change = s.inlets := modify_eq_self fun d hd => by
          obtain rfl := Option.some.inj (hget.symm.trans hd)
          exact hsame
        exact .inl (by rw [hself])
      · have hsum := sum_modify hget (fun c => c.connection.weight) change
        refine .inr ?_
        unfold weight
        dsimp only at hsum ⊢
        omega

theorem weight_push (s : Puller) (i : Nat) : s.push i = s ∨ (s.push i).weight < s.weight := by
  rcases s.push_cases i with hsame | ⟨c, payload, hget, hheld, -, hpush⟩
  · exact .inl hsame
  · have hsum := sum_modify hget (fun c => c.connection.weight) Inlet.release
    have hrelease : c.release.connection.weight + 2 = c.connection.weight := by
      simp only [Inlet.release, Connection.weight, hheld]
      rfl
    refine .inr ?_
    rw [hpush]
    simp only [weight, List.length_append, List.length_singleton]
    omega

theorem weight_poll (s : Puller) : s.poll = s ∨ s.poll.weight < s.weight := by
  unfold poll
  split
  · exact .inl rfl
  · next message queue hpop =>
    obtain ⟨hitems, -⟩ := Queue.pop?_eq_some_iff.mp hpop
    refine .inr ?_
    simp only [weight, hitems, List.length_cons]
    omega

theorem weight_step {action : Action} (h : action.Delivers) :
    s.step action = s ∨ (s.step action).weight < s.weight := by
  by_cases hdropped : s.dropped = true
  · exact .inl (step_of_dropped hdropped action)
  · rw [step_of_open hdropped]
    cases action with
    | push i => exact s.weight_push i
    | poll => exact s.weight_poll
    | inlet i action =>
        cases action with
        | arrive count =>
            exact weight_modify fun c => weight_read (c.connection.weight_arrive count)
        | advance => exact weight_modify fun c => weight_read c.connection.weight_advance
        | write bytes => exact h.elim
        | close => exact h.elim
        | finish => exact h.elim
    | accept => exact h.elim
    | drop => exact h.elim

theorem written_read (c : Inlet) (change : Connection → Connection) :
    (c.read change).written = c.written := by
  rcases c.read_cases change with ⟨-, hread⟩ | ⟨-, hread⟩ <;> rw [hread]

theorem map_written_modify (cs : List Inlet) (i : Nat) {change : Inlet → Inlet}
    (h : ∀ c, (change c).written = c.written) :
    (cs.modify i change).map Inlet.written = cs.map Inlet.written := by
  induction cs generalizing i with
  | nil => cases i <;> rfl
  | cons c rest ih =>
      cases i with
      | zero => simp [h c]
      | succ i => simp [ih i]

/-- A step that moves messages on is no step of a writer, nor does the owner let go. -/
theorem step_of_delivers {action : Action} (h : action.Delivers) :
    (s.step action).dropped = s.dropped ∧
      (s.step action).inlets.map Inlet.written = s.inlets.map Inlet.written := by
  by_cases hdropped : s.dropped = true
  · rw [step_of_dropped hdropped]
    exact ⟨rfl, rfl⟩
  · rw [step_of_open hdropped]
    cases action with
    | push i =>
        rcases s.push_cases i with hsame | ⟨_, _, -, -, -, hpush⟩
        · simp [hsame]
        · dsimp only
          rw [hpush]
          exact ⟨rfl, map_written_modify _ _ fun _ => rfl⟩
    | poll =>
        dsimp only
        rw [inlets_poll]
        unfold poll
        split
        · exact ⟨rfl, rfl⟩
        · exact ⟨rfl, rfl⟩
    | inlet i action =>
        cases action with
        | arrive count => exact ⟨rfl, map_written_modify _ _ fun c => written_read c _⟩
        | advance => exact ⟨rfl, map_written_modify _ _ fun c => written_read c _⟩
        | write bytes => exact h.elim
        | close => exact h.elim
        | finish => exact h.elim
    | accept => exact h.elim
    | drop => exact h.elim

/-- Readers and the owner can get everything through, whatever the writers did so far. -/
theorem Invariant.exists_delivery (h : Invariant limit s) (hlimit : 0 < limit)
    (hdropped : s.dropped = false) :
    ∃ more : List Action, (∀ action ∈ more, action.Delivers) ∧
      ∀ i c, s.inlets[i]? = some c → IsFraming c.written (messagesOf i (s.run more).popped) := by
  -- which step comes next depends on the state, so the induction is on the weight
  induction hweight : s.weight using Nat.strongRecOn generalizing s with
  | ind weight ih =>
      by_cases hall : ∀ i c, s.inlets[i]? = some c → IsFraming c.written (messagesOf i s.popped)
      · exact ⟨[], List.forall_mem_nil _, hall⟩
      · simp only [Classical.not_forall] at hall
        obtain ⟨i, c, hget, hmissing⟩ := hall
        obtain ⟨action, hmem, hne⟩ := h.exists_step hlimit (by simp [hdropped]) hget hmissing
        have hdelivers : action.Delivers := by
          simp only [List.mem_cons, List.not_mem_nil, or_false] at hmem
          rcases hmem with rfl | rfl | rfl | rfl <;> trivial
        have hless := (weight_step hdelivers).resolve_left hne
        obtain ⟨hsame, hwritten⟩ := step_of_delivers hdelivers (s := s)
        obtain ⟨more, hmore, hdone⟩ :=
          ih _ (hweight ▸ hless) (h.step action) (hsame.trans hdropped) rfl
        refine ⟨action :: more, List.forall_mem_cons.mpr ⟨hdelivers, hmore⟩, fun j d hd => ?_⟩
        have hlater : ((s.step action).inlets.map Inlet.written)[j]? = some d.written := by
          rw [hwritten, List.getElem?_map, hd]
          rfl
        rw [List.getElem?_map] at hlater
        obtain ⟨e, he, heq⟩ := Option.map_eq_some_iff.mp hlater
        rw [← heq]
        exact hdone j e he

/-- In every state that a puller can reach, its queue holds no more than it may; the messages of a
connection are those taken, those in the queue, the one held and those not yet read; no step of a
connection by itself, and nothing at all after its reader has failed, makes a difference to the
others; until the owner has got all messages of a connection, it or the reader can go on, and in
the end it can have got all messages. -/
theorem run_keeps_messages (depth : Nat) (actions : List Action) :
    let s := (start depth).run actions
    s.queue.items.length ≤ max 1 depth ∧
      (∀ i c, s.inlets[i]? = some c →
        IsFraming c.written (messagesOf i s.popped ++ messagesOf i s.queue.items ++
          c.connection.held.toList ++ c.connection.ahead.1)) ∧
      (∀ i action, SameBut i (s.step (.inlet i action)) s) ∧
      (∀ i c fault, s.inlets[i]? = some c → c.progress = .failed fault → ∀ more,
        SameBut i (s.run more) (s.run (more.filter (·.inlet? ≠ some i)))) ∧
      (s.dropped = false →
        (∀ i c, s.inlets[i]? = some c → ¬ IsFraming c.written (messagesOf i s.popped) →
          ∃ action ∈ [.poll, .push i, .inlet i .advance, .inlet i (.arrive 1)],
            s.step action ≠ s) ∧
        ∃ more : List Action, (∀ action ∈ more, action.Delivers) ∧
          ∀ i c, s.inlets[i]? = some c →
            IsFraming c.written (messagesOf i (s.run more).popped)) := by
  intro s
  have h : Invariant (min (max 1 depth) Config.maxDepth) s := (invariant_start depth).run actions
  have hlimit : 0 < min (max 1 depth) Config.maxDepth := by
    have hmax : 0 < Config.maxDepth := by decide
    omega
  refine ⟨Nat.le_trans h.room (Nat.min_le_left _ _), fun i c hget => h.framing hget,
    fun i action => s.sameBut_inlet i action, fun i c fault hget hfailed more => ?_,
    fun hdropped => ⟨fun i c hget hmissing => ?_, h.exists_delivery hlimit hdropped⟩⟩
  · have hended : Ended i s := ⟨c, hget, by simp [hfailed]⟩
    exact hended.sameBut_run h (.refl i s) more
  · exact h.exists_step hlimit (by simp [hdropped]) hget hmissing

end LogRelay.Wire.Puller
