import LogRelay.Proofs.Wire.FanIn

/-!
# How a connection ends

When a connection ends, all its whole frames have been handed on, and what is left behind them says
whether anything is reported: nothing if nothing is left, one warning if the stream was cut off
inside a length or inside a message, or went on with a length above the limit. The one gap is a
stream that was cut off right behind a length: the reader has used up the length by then, so its
buffer is as empty as after a whole frame, and the missing message is not noticed.
-/

namespace LogRelay.Wire

/-- What is left of a stream behind its last whole frame, and the fault of a connection that ends
there. -/
inductive Cut : List UInt8 → Option SystemFault → Prop
  /-- Nothing is left. -/
  | boundary : Cut [] none
  /-- The stream ends inside a length. -/
  | length {bs : List UInt8} (nonempty : bs ≠ []) (short : bs.length < 4) :
      Cut bs (some .unfinishedFrame)
  /-- The stream ends right behind a length. -/
  | announced {n : Nat} (missing : 0 < n) (small : n ≤ maxFrameLength) : Cut (bigEndian 4 n) none
  /-- The stream ends inside a message. -/
  | payload {n : Nat} {bs : List UInt8} (nonempty : bs ≠ []) (short : bs.length < n)
      (small : n ≤ maxFrameLength) : Cut (bigEndian 4 n ++ bs) (some .unfinishedFrame)
  /-- A length is above the limit. -/
  | oversized {head : List UInt8} (whole : head.length = 4)
      (large : maxFrameLength < ofBigEndian head) (more : List UInt8) :
      Cut (head ++ more) (some .oversizedFrame)

/-- A splitter that cannot go on ends with the fault of what it has read since the last message. -/
theorem Splitter.HasRead.cut {s : Splitter} {bs : List UInt8} (h : s.HasRead bs)
    (hstuck : s.advance? = none) : Cut bs s.endFault? := by
  obtain ⟨stage, buffer⟩ := s
  cases stage with
  | length =>
      obtain rfl : bs = buffer := h
      have hshort : bs.length < 4 := cut?_eq_none_iff.mp (Option.map_eq_none_iff.mp hstuck)
      cases bs with
      | nil => exact .boundary
      | cons b bs => exact .length (List.cons_ne_nil b bs) hshort
  | payload n =>
      obtain ⟨hsmall, rfl⟩ := h
      have hshort : buffer.length < n := cut?_eq_none_iff.mp (Option.map_eq_none_iff.mp hstuck)
      cases buffer with
      | nil =>
          rw [List.append_nil]
          exact .announced hshort hsmall
      | cons b bs => exact .payload (List.cons_ne_nil b bs) hshort hsmall
  | refused =>
      obtain ⟨head, hwhole, hlarge, rfl⟩ := h
      exact .oversized hwhole hlarge buffer

/-- A length alone is no sequence of frames. -/
theorem frames_ne_length (payloads : List (List UInt8)) : frames payloads ≠ [0, 0, 0, 1] := by
  intro h
  cases payloads with
  | nil => cases h
  | cons payload rest =>
      have hsplit : bigEndian 4 payload.length ++ (payload ++ frames rest) =
          [0, 0, 0, 1] ++ [] := by
        rw [← List.append_assoc]
        exact h
      obtain ⟨hhead, htail⟩ := List.append_inj hsplit (length_bigEndian 4 _)
      rw [(List.append_eq_nil_iff.mp htail).1] at hhead
      cases hhead

/-! ## One connection -/

namespace Inlet

/-- A reader that has ended says what its splitter says. -/
def Settled (c : Inlet) : Prop :=
  c.progress ≠ .reading → c.progress = .ended c.connection.splitter.endFault?

variable {c d : Inlet} {handed : List (List UInt8)}

theorem Settled.read (h : c.Settled) (change : Connection → Connection) :
    (c.read change).Settled := by
  rcases c.read_cases change with ⟨hreading, hread⟩ | ⟨-, hread⟩
  · rw [hread]
    exact fun hended => absurd hreading hended
  · rwa [hread]

theorem Settled.step (h : c.Settled) (action : Action) : (c.step action).Settled := by
  cases action with
  | write bytes =>
      change (c.write bytes).Settled
      unfold Inlet.write
      split
      · exact h
      · exact h
  | close => exact h
  | arrive count => exact h.read _
  | advance => exact h.read _
  | finish =>
      change c.finish.Settled
      rw [finish_eq]
      split
      · exact fun _ => rfl
      · exact h

theorem Settled.follows (h : c.Settled) (hd : c.Follows d) : d.Settled := by
  cases hd with
  | same => exact h
  | step action => exact h.step action
  | release => exact h

/-- A reader that has ended stays as it is. -/
theorem Settled.progress_eq (h : c.Settled) (hended : c.progress ≠ .reading) (hd : c.Follows d) :
    d.progress = c.progress := by
  cases hd with
  | same => rfl
  | step action => exact (c.progress_step action).elim id fun hnext => hnext.trans (h hended).symm
  | release => rfl

/-- A connection that is closed stays closed, and nothing more is written on it. -/
theorem Follows.of_closed (h : c.Follows d) (hclosed : c.closed = true) :
    d.closed = true ∧ d.written = c.written := by
  have hread (change : Connection → Connection) :
      (c.read change).closed = true ∧ (c.read change).written = c.written := by
    rcases c.read_cases change with ⟨-, hread⟩ | ⟨-, hread⟩ <;> rw [hread] <;> exact ⟨hclosed, rfl⟩
  cases h with
  | same => exact ⟨hclosed, rfl⟩
  | release => exact ⟨hclosed, rfl⟩
  | step action =>
      cases action with
      | write bytes =>
          change (c.write bytes).closed = true ∧ (c.write bytes).written = c.written
          rw [Inlet.write, if_pos hclosed]
          exact ⟨hclosed, rfl⟩
      | close => exact ⟨rfl, rfl⟩
      | arrive count => exact hread _
      | advance => exact hread _
      | finish =>
          change c.finish.closed = true ∧ c.finish.written = c.written
          rw [finish_eq]
          split
          · exact ⟨hclosed, rfl⟩
          · exact ⟨hclosed, rfl⟩

/-- What a reader that has ended left over makes the same fault as all that is left over. -/
theorem Sound.endFault?_ahead (h : c.Sound handed) (hended : c.progress ≠ .reading) :
    c.connection.ahead.2.endFault? = c.connection.splitter.endFault? := by
  obtain ⟨-, hrefused | ⟨hstuck, hincoming, -⟩⟩ := h.ended hended
  · rw [Connection.ahead_of_refused hrefused, Splitter.endFault?, Splitter.endFault?,
      if_pos hrefused]
    exact if_pos hrefused
  · rw [Connection.ahead, hincoming, Splitter.extend_nil, Splitter.unpack_of_stuck hstuck]

/-- When a reader has ended, it has handed on every whole frame, and its fault is that of what is
left of the stream. -/
theorem Sound.cut (h : c.Sound handed) (hsettled : c.Settled) (hended : c.progress ≠ .reading) :
    ∃ rest fault, c.written = frames handed ++ rest ∧ Cut rest fault ∧
      c.progress = .ended fault := by
  obtain ⟨-, rest, hrest, hread⟩ := Splitter.HasRead.unpack (s := ⟨.length, c.written⟩) rfl
  have hcut := hread.cut (Splitter.advance?_unpack _)
  rw [h.whole, h.endFault?_ahead hended] at hcut
  rw [h.whole, h.backlog_of_ended hended, List.append_nil] at hrest
  exact ⟨rest, _, hrest, hcut, hsettled hended⟩

end Inlet

/-! ## Many connections -/

namespace Puller

variable {limit : Nat} {s : Puller} {i : Nat}

/-- Every reader that has ended says what its splitter says. -/
def Settled (s : Puller) : Prop :=
  ∀ (i : Nat) (c : Inlet), s.inlets[i]? = some c → c.Settled

theorem settled_start (depth : Nat) : (start depth).Settled := by
  intro i c h
  simp [start] at h

theorem Settled.step (h : s.Settled) (action : Action) : (s.step action).Settled := by
  intro i d hd
  rcases s.getElem?_step i action with ⟨c, d', hc, hd', hfollows⟩ | ⟨-, hnone | hnew⟩
  · obtain rfl := Option.some.inj (hd'.symm.trans hd)
    exact (h i c hc).follows hfollows
  · cases hnone.symm.trans hd
  · obtain rfl := Option.some.inj (hnew.symm.trans hd)
    exact fun hended => absurd rfl hended

theorem Settled.run (h : s.Settled) (actions : List Action) : (s.run actions).Settled := by
  induction actions generalizing s with
  | nil => exact h
  | cons action rest ih => exact ih (h.step action)

theorem fault?_eq_some_iff {fault : SystemFault} :
    s.fault? i = some fault ↔ ∃ c, s.inlets[i]? = some c ∧ c.progress = .failed fault := by
  unfold fault?
  cases s.inlets[i]? with
  | none => simp
  | some c => cases hprogress : c.progress <;> simp [hprogress]

theorem fault?_of_ended {c : Inlet} {fault : Option SystemFault} (hget : s.inlets[i]? = some c)
    (hended : c.progress = .ended fault) : s.fault? i = fault := by
  rw [fault?, hget, Option.map_some, hended]
  cases fault <;> rfl

theorem fault?_of_reading {c : Inlet} (hget : s.inlets[i]? = some c)
    (hreading : c.progress = .reading) : s.fault? i = none := by
  rw [fault?, hget, Option.map_some, hreading]

/-- A reader that gave up has given up for good. -/
theorem Settled.fault?_step (h : s.Settled) {fault : SystemFault} (hfault : s.fault? i = some fault)
    (action : Action) : (s.step action).fault? i = some fault := by
  obtain ⟨c, hc, hfailed⟩ := fault?_eq_some_iff.mp hfault
  rcases s.getElem?_step i action with ⟨c', d, hc', hd, hfollows⟩ | ⟨hnone, -⟩
  · obtain rfl := Option.some.inj (hc.symm.trans hc')
    have hended : c.progress ≠ .reading := by simp [hfailed]
    exact fault?_eq_some_iff.mpr ⟨d, hd, ((h i c hc).progress_eq hended hfollows).trans hfailed⟩
  · cases hnone.symm.trans hc

theorem Settled.fault?_run (h : s.Settled) {fault : SystemFault} (hfault : s.fault? i = some fault)
    (actions : List Action) : (s.run actions).fault? i = some fault := by
  induction actions generalizing s with
  | nil => exact hfault
  | cons action rest ih => exact ih (h.step action) (h.fault?_step hfault action)

theorem Settled.warnings_of_failed (h : s.Settled) {fault : SystemFault}
    (hfault : s.fault? i = some fault) (actions : List Action) : s.warnings i actions = [] := by
  induction actions generalizing s with
  | nil => rfl
  | cons action rest ih =>
      rw [warnings, ih (h.step action) (h.fault?_step hfault action), hfault]
      rfl

/-- A reader that gives up is reported once. -/
theorem Settled.warnings_eq (h : s.Settled) (hnone : s.fault? i = none) (actions : List Action) :
    s.warnings i actions =
      ((s.run actions).fault? i).toList.map droppedEvent := by
  induction actions generalizing s with
  | nil =>
      change [] = (s.fault? i).toList.map _
      rw [hnone]
      rfl
  | cons action rest ih =>
      change _ ++ (s.step action).warnings i rest = (((s.step action).run rest).fault? i).toList.map _
      rw [if_pos hnone]
      cases hfault : (s.step action).fault? i with
      | none => exact ih (h.step action) hfault
      | some fault =>
          rw [(h.step action).warnings_of_failed hfault, (h.step action).fault?_run hfault]
          rfl

/-! ## Coming to an end -/

/-- A step by which a reader or the owner goes on, the last one of a reader included. -/
def Action.Progresses (action : Action) : Prop :=
  action.Delivers ∨ ∃ i, action = .inlet i .finish

/-- A reader of a closed connection that cannot go on comes to its end. -/
theorem isOver_of_stuck {c : Inlet} (hclosed : c.closed = true) (hheld : c.connection.held = none)
    (hadvance : c.connection.advance = c.connection)
    (harrive : c.connection.arrive 1 = c.connection) : c.isOver = true := by
  refine Inlet.isOver_iff.mpr ⟨hheld, Connection.advance?_of_stuck hheld hadvance, ?_⟩
  rcases Connection.incoming_of_stuck hheld hadvance harrive with hrefused | hincoming
  · exact .inl hrefused
  · exact .inr ⟨hclosed, hincoming⟩

/-- Until the reader of a closed connection comes to its end, it or the owner can go on. -/
theorem Invariant.exists_step_of_closed {c : Inlet} (h : Invariant limit s) (hlimit : 0 < limit)
    (hdropped : ¬ s.dropped = true) (hget : s.inlets[i]? = some c) (hclosed : c.closed = true)
    (hreading : c.progress = .reading) (hover : ¬ c.isOver = true) :
    ∃ action : Action, action.Delivers ∧ s.step action ≠ s := by
  by_cases hitems : s.queue.items = []
  · have hroom : s.queue.items.length < s.queue.capacity := by
      rwa [hitems, h.capacity]
    have hmoves : c.connection.held ≠ none ∨ c.connection.advance ≠ c.connection ∨
        c.connection.arrive 1 ≠ c.connection := by
      by_contra hstuck
      simp only [not_or, ne_eq, Decidable.not_not] at hstuck
      obtain ⟨hheld, hadvance, harrive⟩ := hstuck
      exact hover (isOver_of_stuck hclosed hheld hadvance harrive)
    obtain ⟨action, hmem, hne⟩ := exists_step_of_moves hdropped hroom hget hreading hmoves
    refine ⟨action, ?_, hne⟩
    simp only [List.mem_cons, List.not_mem_nil, or_false] at hmem
    rcases hmem with rfl | rfl | rfl <;> trivial
  · refine ⟨.poll, trivial, ?_⟩
    rw [step_of_open hdropped]
    exact poll_ne hitems

/-- A reader that comes to its end ends by one more step. -/
theorem ended_of_isOver {c : Inlet} (hdropped : ¬ s.dropped = true) (hget : s.inlets[i]? = some c)
    (hover : c.isOver = true) :
    ∃ d, (s.step (.inlet i .finish)).inlets[i]? = some d ∧ d.written = c.written ∧
      d.progress ≠ .reading := by
  refine ⟨{ c with progress := .ended c.connection.splitter.endFault? }, ?_, rfl,
    Progress.ended_ne_reading _⟩
  rw [step_of_open hdropped]
  simp [hget, Inlet.step, Inlet.finish_eq, hover]

/-- The reader of a closed connection can come to its end, whatever happened so far. -/
theorem Invariant.exists_ending {c : Inlet} (h : Invariant limit s) (hlimit : 0 < limit)
    (hdropped : s.dropped = false) (hget : s.inlets[i]? = some c) (hclosed : c.closed = true) :
    ∃ more : List Action, (∀ action ∈ more, action.Progresses) ∧
      ∃ d, (s.run more).inlets[i]? = some d ∧ d.written = c.written ∧ d.progress ≠ .reading := by
  -- which step comes next depends on the state, so the induction is on the weight
  induction hweight : s.weight using Nat.strongRecOn generalizing s c with
  | ind weight ih =>
      by_cases hreading : c.progress = .reading
      · by_cases hover : c.isOver = true
        · exact ⟨[.inlet i .finish], by simp [Action.Progresses],
            ended_of_isOver (by simp [hdropped]) hget hover⟩
        · obtain ⟨action, hdelivers, hne⟩ :=
            h.exists_step_of_closed hlimit (by simp [hdropped]) hget hclosed hreading hover
          have hless := (weight_step hdelivers).resolve_left hne
          have hopen := (step_of_delivers hdelivers).1.trans hdropped
          rcases s.getElem?_step i action with ⟨c', d, hc', hd, hfollows⟩ | ⟨hnone, -⟩
          · obtain rfl := Option.some.inj (hget.symm.trans hc')
            obtain ⟨hdclosed, hdwritten⟩ := hfollows.of_closed hclosed
            obtain ⟨more, hmore, e, he, hewritten, hended⟩ :=
              ih _ (hweight ▸ hless) (h.step action) hopen hd hdclosed rfl
            refine ⟨action :: more, List.forall_mem_cons.mpr ⟨.inl hdelivers, hmore⟩, e, he,
              hewritten.trans hdwritten, hended⟩
          · cases hnone.symm.trans hget
      · exact ⟨[], List.forall_mem_nil _, c, hget, rfl, hreading⟩

/-- Whatever steps a puller takes, nothing is reported about a connection while its reader reads.
When the reader has ended, all whole frames of the stream are in the queue or beyond, and the
reports are one warning of the fault of what is left of the stream, or none if that is no fault. The
reader of a closed connection can always come to its end. -/
theorem run_warns (depth : Nat) (actions : List Action) (i : Nat) (c : Inlet)
    (hget : ((start depth).run actions).inlets[i]? = some c) :
    let s := (start depth).run actions
    let warnings := (start depth).warnings i actions
    (c.progress = .reading → warnings = []) ∧
      (c.progress ≠ .reading → ∃ rest fault,
        c.written = frames (messagesOf i s.handed) ++ rest ∧ Cut rest fault ∧
          IsFraming c.written (messagesOf i s.handed) ∧
          warnings = fault.toList.map droppedEvent) ∧
      (s.dropped = false → c.closed = true →
        ∃ more : List Action, (∀ action ∈ more, action.Progresses) ∧
          ∃ d, (s.run more).inlets[i]? = some d ∧ d.written = c.written ∧
            d.progress ≠ .reading) := by
  intro s warnings
  have h : Invariant (min (max 1 depth) Config.maxDepth) s := (invariant_start depth).run actions
  have hsettled : s.Settled := (settled_start depth).run actions
  have hlimit : 0 < min (max 1 depth) Config.maxDepth := by
    have hmax : 0 < Config.maxDepth := by decide
    omega
  have hstart : (start depth).fault? i = none := rfl
  have hwarnings : warnings = (s.fault? i).toList.map droppedEvent :=
    (settled_start depth).warnings_eq hstart actions
  refine ⟨fun hreading => ?_, fun hended => ?_, fun hdropped hclosed =>
    h.exists_ending hlimit hdropped hget hclosed⟩
  · rw [hwarnings, fault?_of_reading hget hreading]
    rfl
  · have hsound := h.sound i c hget
    obtain ⟨rest, fault, hwritten, hcut, hprogress⟩ := hsound.cut (hsettled i c hget) hended
    refine ⟨rest, fault, hwritten, hcut, ?_, ?_⟩
    · have hframing := isFraming_unpack c.written
      rw [hsound.whole, hsound.backlog_of_ended hended, List.append_nil] at hframing
      exact hframing
    · rw [hwarnings, fault?_of_ended hget hprogress]

/-- A connection on which some bytes are written, which is then closed and read to its end. -/
def course (bytes : List UInt8) : List Action :=
  [.accept, .inlet 0 (.write bytes), .inlet 0 .close, .inlet 0 (.arrive bytes.length),
    .inlet 0 .advance, .inlet 0 .finish]

/-- A stream that ends inside a message is reported. -/
theorem run_warns_inside_message :
    let actions := course [0, 0, 0, 2, 65]
    let s := (start 16).run actions
    ∃ c, s.inlets[0]? = some c ∧ c.progress ≠ .reading ∧ c.closed = true ∧ s.dropped = false ∧
      (start 16).warnings 0 actions = [droppedEvent .unfinishedFrame] ∧
      (∃ rest fault, c.written = frames (messagesOf 0 s.handed) ++ rest ∧ Cut rest fault ∧
        (start 16).warnings 0 actions = fault.toList.map droppedEvent) ∧
      ∃ more d, (s.run more).inlets[0]? = some d ∧ d.progress ≠ .reading := by
  intro actions s
  obtain ⟨-, hended, hending⟩ := run_warns 16 actions 0 _ rfl
  obtain ⟨rest, fault, hwritten, hcut, -, hwarnings⟩ := hended (by decide)
  obtain ⟨more, -, d, hd, -, hdone⟩ := hending rfl rfl
  exact ⟨_, rfl, by decide, rfl, rfl, rfl, ⟨rest, fault, hwritten, hcut, hwarnings⟩, more, d, hd,
    hdone⟩

/-- A stream that ends right behind a length is no sequence of frames, and nothing is reported. -/
theorem not_warns_behind_length :
    ¬ ∀ (depth : Nat) (actions : List Action) (i : Nat) (c : Inlet),
      ((start depth).run actions).inlets[i]? = some c → c.closed = true → c.progress ≠ .reading →
        ((start depth).warnings i actions = [] ↔
          ∃ payloads : List (List UInt8), (∀ payload ∈ payloads, payload.length ≤ maxFrameLength) ∧
            c.written = frames payloads) := by
  intro h
  obtain ⟨payloads, -, hwritten⟩ := (h 16 (course [0, 0, 0, 1]) 0 _ rfl rfl (by decide)).mp rfl
  exact frames_ne_length payloads hwritten.symm

end Puller

end LogRelay.Wire
