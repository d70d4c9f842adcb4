import LogRelay.Proofs.Envelope.Meaning
import LogRelay.Sink.Memory
import LogRelay.Worker.Loop

/-!
# The worker of a running relay

As long as the running flag is set, a turn is nothing but the handling of what the wait gives: no
deadline is fixed, and without a message nothing changes. What a sink is to be given is told by the
messages alone: the records before the first sentinel, malformed messages left out.
-/

namespace LogRelay

/-- The record that a message carries, if it carries one. -/
def Envelope.record? (payload : List UInt8) : Option LogRecord :=
  match decode payload with
  | .ok (.record r) => some r
  | _ => none

/-- The records that messages bring to a sink, in order. -/
def delivered (payloads : List (List UInt8)) : List LogRecord :=
  (payloads.takeWhile (· ≠ sentinel)).filterMap Envelope.record?

theorem delivered_sentinel_cons (back : List (List UInt8)) : delivered (sentinel :: back) = [] := by
  rw [delivered, List.takeWhile_cons_of_neg (by simp)]
  rfl

theorem delivered_cons {payload : List UInt8} (h : payload ≠ sentinel) (back : List (List UInt8)) :
    delivered (payload :: back) = (Envelope.record? payload).toList ++ delivered back := by
  rw [delivered, List.takeWhile_cons_of_pos (by simpa using h), List.filterMap_cons]
  cases Envelope.record? payload with
  | none => rfl
  | some r => rfl

theorem delivered_append_of_not_mem {front : List (List UInt8)} (h : sentinel ∉ front)
    (back : List (List UInt8)) : delivered (front ++ back) = delivered front ++ delivered back := by
  induction front with
  | nil => rfl
  | cons payload rest ih =>
      have hpayload : payload ≠ sentinel := fun heq => h (heq ▸ List.mem_cons_self)
      have hrest : sentinel ∉ rest := fun hmem => h (List.mem_cons_of_mem payload hmem)
      rw [List.cons_append, delivered_cons hpayload, delivered_cons hpayload, ih hrest,
        List.append_assoc]

theorem delivered_append_of_mem {front : List (List UInt8)} (h : sentinel ∈ front)
    (back : List (List UInt8)) : delivered (front ++ back) = delivered front := by
  induction front with
  | nil => cases h
  | cons payload rest ih =>
      by_cases hpayload : payload = sentinel
      · rw [hpayload, List.cons_append, delivered_sentinel_cons, delivered_sentinel_cons]
      · have hrest : sentinel ∈ rest := (List.mem_cons.mp h).resolve_left (Ne.symm hpayload)
        rw [List.cons_append, delivered_cons hpayload, delivered_cons hpayload, ih hrest]

namespace Worker

variable {σ : Type} {timeouts : Timeouts} {sink : Sink σ} {s : State σ}

/-- While the running flag is set, a turn handles what the wait gives and does nothing else. -/
theorem turn_running (h : s.ending = none) (now : Nat) (polled : Polled) :
    turn timeouts sink s ⟨true, now, polled⟩ = react sink s polled := by
  obtain ⟨state, deadline, ending⟩ := s
  cases h
  have hplan : plan timeouts true now deadline = ⟨deadline, some timeouts.poll.nanos⟩ := rfl
  have hnoticed : (deadline.isNone && deadline.isSome) = false := by
    cases deadline with
    | none => rfl
    | some deadline => rfl
  unfold turn
  rw [if_neg nofun]
  dsimp only
  rw [hplan]
  dsimp only
  rw [hnoticed]
  rfl

theorem turn_ended (h : s.ending ≠ none) (t : Turn) : turn timeouts sink s t = (s, []) := by
  rw [turn, if_pos (Option.isSome_iff_ne_none.mpr h)]

theorem handle_sentinel :
    handle sink s LogRelay.sentinel = ({ s with ending := some .sentinel }, [sentinelEvent]) := by
  rw [handle, Envelope.decode_eq_sentinel_iff.mpr rfl]

/-- A sink that keeps records gets the record of a message, if there is one. -/
theorem handle_memory {s : State Memory} {payload : List UInt8} (h : payload ≠ LogRelay.sentinel) :
    (handle Sink.memory s payload).1 =
      { s with sink := ⟨s.sink.records ++ (Envelope.record? payload).toList⟩ } := by
  unfold handle Envelope.record?
  split
  · next hdecode => exact absurd (Envelope.decode_eq_sentinel_iff.mp hdecode) h
  · next r hdecode => rw [hdecode]; rfl
  · next e hdecode => rw [hdecode, Option.toList_none, List.append_nil]

end Worker

end LogRelay
