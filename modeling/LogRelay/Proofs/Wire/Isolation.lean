import LogRelay.Proofs.Wire.Conservation

/-!
# Connections do not disturb each other

A step that a connection takes by itself changes nothing else, and two pullers that differ in one
connection only go on to differ in that one only, as long as it hands on no message. So once the
reader of a connection has ended, all others go on as if that connection were silent.
-/

namespace LogRelay.Wire.Puller

variable {limit : Nat} {s t : Puller}

/-- Two pullers are the same but for one connection. -/
structure SameBut (i : Nat) (s t : Puller) : Prop where
  queue : s.queue = t.queue
  popped : s.popped = t.popped
  dropped : s.dropped = t.dropped
  count : s.inlets.length = t.inlets.length
  others : ∀ j, j ≠ i → s.inlets[j]? = t.inlets[j]?

/-- The connection that takes part in a step. -/
def Action.inlet? : Action → Option Nat
  | .inlet i _ | .push i => some i
  | .accept | .poll | .drop => none

section SameBut

variable {i : Nat}

theorem SameBut.refl (i : Nat) (s : Puller) : SameBut i s s :=
  ⟨rfl, rfl, rfl, rfl, fun _ _ => rfl⟩

theorem SameBut.trans {u : Puller} (h : SameBut i s t) (htu : SameBut i t u) : SameBut i s u where
  queue := h.queue.trans htu.queue
  popped := h.popped.trans htu.popped
  dropped := h.dropped.trans htu.dropped
  count := h.count.trans htu.count
  others j hj := (h.others j hj).trans (htu.others j hj)

/-- A step that a connection takes by itself changes nothing else. -/
theorem sameBut_inlet (s : Puller) (i : Nat) (action : Inlet.Action) :
    SameBut i (s.step (.inlet i action)) s := by
  unfold Puller.step
  split
  · exact .refl i s
  · exact ⟨rfl, rfl, rfl, by simp, fun j hj => by simp [hj.symm]⟩

theorem SameBut.push {k : Nat} (h : SameBut i s t) (hk : k ≠ i) :
    SameBut i (s.push k) (t.push k) := by
  simp only [Puller.push, h.others k hk, h.queue]
  split
  · exact h
  · split
    · exact h
    · next queue hpush =>
      refine { h with queue := rfl, count := by simp [h.count], others := fun j hj => ?_ }
      simp [List.getElem?_modify, h.others j hj]

theorem SameBut.poll (h : SameBut i s t) : SameBut i s.poll t.poll := by
  simp only [Puller.poll, h.queue]
  split
  · exact h
  · exact { h with queue := rfl, popped := by rw [h.popped] }

theorem SameBut.step {action : Action} (h : SameBut i s t) (haction : action.inlet? ≠ some i) :
    SameBut i (s.step action) (t.step action) := by
  by_cases hdropped : s.dropped = true
  · rw [step_of_dropped hdropped, step_of_dropped (h.dropped ▸ hdropped)]
    exact h
  · rw [step_of_open hdropped, step_of_open (h.dropped ▸ hdropped)]
    cases action with
    | accept =>
        refine { h with count := by simp [h.count], others := fun j hj => ?_ }
        simp [List.getElem?_append, h.count, h.others j hj]
    | inlet k action =>
        refine { h with count := by simp [h.count], others := fun j hj => ?_ }
        simp [List.getElem?_modify, h.others j hj]
    | push k => exact h.push fun heq => haction (congrArg some heq)
    | poll => exact h.poll
    | drop => exact { h with dropped := rfl }

end SameBut

/-- The reader of a connection has ended. -/
def Ended (i : Nat) (s : Puller) : Prop :=
  ∃ c, s.inlets[i]? = some c ∧ c.progress ≠ .reading

theorem Ended.push_eq {i : Nat} (h : Ended i s) (hs : Invariant limit s) : s.push i = s := by
  rcases s.push_cases i with hsame | ⟨c, payload, hget, hheld, -, -⟩
  · exact hsame
  · obtain ⟨d, hd, hended⟩ := h
    obtain rfl : c = d := Option.some.inj (hget.symm.trans hd)
    obtain ⟨hnone, -⟩ := (hs.sound i c hget).ended hended
    cases hnone.symm.trans hheld

theorem Ended.step {i : Nat} (h : Ended i s) (action : Action) : Ended i (s.step action) := by
  obtain ⟨c, hget, hended⟩ := h
  rcases s.getElem?_step i action with ⟨c', d, hc', hd, hfollows⟩ | ⟨hnone, -⟩
  · obtain rfl := Option.some.inj (hget.symm.trans hc')
    exact ⟨d, hd, hfollows.progress_ne_reading hended⟩
  · cases hnone.symm.trans hget

theorem Ended.sameBut_step {i : Nat} {action : Action} (h : Ended i s) (hs : Invariant limit s)
    (haction : action.inlet? = some i) : SameBut i (s.step action) s := by
  cases action with
  | inlet k action =>
      obtain rfl := Option.some.inj haction
      exact s.sameBut_inlet k action
  | push k =>
      obtain rfl := Option.some.inj haction
      have hsame : s.step (.push k) = s := by
        by_cases hdropped : s.dropped = true
        · exact step_of_dropped hdropped _
        · rw [step_of_open hdropped]
          exact h.push_eq hs
      rw [hsame]
      exact .refl k s
  | accept => cases haction
  | poll => cases haction
  | drop => cases haction

/-- What a connection does after its reader has ended makes no difference to the others. -/
theorem Ended.sameBut_run {i : Nat} (h : Ended i s) (hs : Invariant limit s) (hst : SameBut i s t)
    (actions : List Action) :
    SameBut i (s.run actions) (t.run (actions.filter (·.inlet? ≠ some i))) := by
  -- `t` leaves out the steps of the connection, so only the relation of the two states stays
  induction actions generalizing s t with
  | nil => exact hst
  | cons action rest ih =>
      have hnext := hs.step action
      by_cases haction : action.inlet? = some i
      · rw [List.filter_cons_of_neg (by simpa using haction)]
        exact ih (h.step action) hnext ((h.sameBut_step hs haction).trans hst)
      · rw [List.filter_cons_of_pos (by simpa using haction)]
        exact ih (h.step action) hnext (hst.step haction)

end LogRelay.Wire.Puller
