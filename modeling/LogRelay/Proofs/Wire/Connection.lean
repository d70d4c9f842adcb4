import LogRelay.Proofs.Wire.Frame
import LogRelay.Wire.Connection

/-!
# What a connection still delivers

At any time the messages that a connection still delivers are the one that its reader holds and
those that are in the bytes ahead. No step of the reader changes them, and writing whole frames adds
their messages at the end.
-/

namespace LogRelay.Wire.Connection

/-- What the splitter will make of all bytes that were written. -/
def ahead (c : Connection) : List (List UInt8) × Splitter :=
  (c.splitter.extend c.incoming).unpack

/-- The messages that are still to be delivered, in order. -/
def backlog (c : Connection) : List (List UInt8) :=
  c.held.toList ++ c.ahead.1

/-- All that was written was whole frames. -/
def Whole (c : Connection) : Prop :=
  c.ahead.2 = {}

theorem whole_empty : Whole {} := by
  rw [Whole, ahead, Splitter.extend_nil, Splitter.unpack_of_stuck rfl]

theorem backlog_empty : backlog {} = [] := by
  rw [backlog, ahead, Splitter.extend_nil, Splitter.unpack_of_stuck rfl]
  rfl

variable {c : Connection}

theorem backlog_of_ahead_eq {d : Connection} (hheld : d.held = c.held)
    (hahead : d.ahead = c.ahead) :
    d.backlog = c.backlog := by
  rw [backlog, backlog, hheld, hahead]

/-! ## Arriving -/

theorem ahead_arrive (c : Connection) (count : Nat) : (c.arrive count).ahead = c.ahead := by
  unfold arrive
  split
  · change ((c.splitter.extend (c.incoming.take count)).extend (c.incoming.drop count)).unpack = _
    rw [Splitter.extend_extend, List.take_append_drop]
    rfl
  · rfl

theorem held_arrive (c : Connection) (count : Nat) : (c.arrive count).held = c.held := by
  unfold arrive
  split
  · rfl
  · rfl

theorem backlog_arrive (c : Connection) (count : Nat) : (c.arrive count).backlog = c.backlog :=
  backlog_of_ahead_eq (held_arrive c count) (ahead_arrive c count)

/-! ## Advancing -/

theorem ahead_of_advance? {out : Option (List UInt8)} {t : Splitter}
    (h : c.splitter.advance? = some (out, t)) :
    c.ahead = (out.toList ++ (t.extend c.incoming).unpack.1, (t.extend c.incoming).unpack.2) :=
  Splitter.unpack_of_advance? (Splitter.advance?_extend h c.incoming)

theorem backlog_advance (c : Connection) : c.advance.backlog = c.backlog := by
  unfold advance
  split
  · next out t hheld hstep =>
    rw [backlog, backlog, ahead_of_advance? hstep, hheld]
    rfl
  · rfl

theorem ahead_advance (c : Connection) : c.advance.ahead.2 = c.ahead.2 := by
  unfold advance
  split
  · next out t hheld hstep =>
    rw [ahead_of_advance? hstep]
    rfl
  · rfl

/-! ## Writing -/

theorem ahead_write (c : Connection) (bs : List UInt8) :
    (c.write bs).ahead =
      (c.ahead.1 ++ (c.ahead.2.extend bs).unpack.1, (c.ahead.2.extend bs).unpack.2) := by
  unfold ahead
  rw [← Splitter.unpack_extend, Splitter.extend_extend]
  rfl

theorem write_frames {payloads : List (List UInt8)} (h : c.Whole)
    (hlengths : ∀ payload ∈ payloads, payload.length ≤ maxFrameLength) :
    (c.write (frames payloads)).backlog = c.backlog ++ payloads ∧
      (c.write (frames payloads)).Whole := by
  have hahead : (c.write (frames payloads)).ahead = (c.ahead.1 ++ payloads, {}) := by
    rw [ahead_write, h]
    change (c.ahead.1 ++ (Splitter.unpack ⟨.length, frames payloads⟩).1,
      (Splitter.unpack ⟨.length, frames payloads⟩).2) = _
    rw [Splitter.unpack_frames hlengths]
  constructor
  · rw [backlog, backlog, hahead, List.append_assoc]
    rfl
  · rw [Whole, hahead]

/-! ## Coming to rest -/

/-- A number that every step of the reader makes smaller. A byte counts for more before it arrives
than after, and what the splitter gains by a message is more than holding the message costs. -/
def weight (c : Connection) : Nat :=
  7 * c.incoming.length + 3 * c.splitter.weight + 2 * c.held.toList.length

theorem weight_write (c : Connection) (bs : List UInt8) :
    (c.write bs).weight = c.weight + 7 * bs.length := by
  have hlength : (c.incoming ++ bs).length = c.incoming.length + bs.length := List.length_append
  change 7 * (c.incoming ++ bs).length + 3 * c.splitter.weight + 2 * c.held.toList.length = _
  rw [weight, hlength]
  omega

theorem weight_extend {s : Splitter} (h : s.stage ≠ .refused) (more : List UInt8) :
    (s.extend more).weight = s.weight + 2 * more.length := by
  obtain ⟨stage, buffer⟩ := s
  have hlength : (buffer ++ more).length = buffer.length + more.length := List.length_append
  cases stage with
  | length =>
      change 2 * (buffer ++ more).length = 2 * buffer.length + _
      omega
  | payload length =>
      change 2 * (buffer ++ more).length + 1 = 2 * buffer.length + 1 + _
      omega
  | refused => exact absurd rfl h

theorem weight_arrive (c : Connection) (count : Nat) :
    c.arrive count = c ∨ (c.arrive count).weight < c.weight := by
  by_cases hwants : c.wantsBytes = true
  · have harrive : c.arrive count = { c with
        incoming := c.incoming.drop count
        splitter := c.splitter.extend (c.incoming.take count) } := if_pos hwants
    have hstage : c.splitter.stage ≠ .refused := by
      have hparts := hwants
      rw [wantsBytes, Bool.and_eq_true, Bool.and_eq_true] at hparts
      exact bne_iff_ne.mp hparts.2
    rw [harrive]
    by_cases hnone : c.incoming.take count = []
    · have hrest : c.incoming.drop count = c.incoming := by
        have hsplit := List.take_append_drop count c.incoming
        rwa [hnone, List.nil_append] at hsplit
      rw [hnone, hrest, Splitter.extend_nil]
      exact .inl rfl
    · have hsome : 0 < (c.incoming.take count).length := List.length_pos_iff.mpr hnone
      have hsplit : (c.incoming.take count).length + (c.incoming.drop count).length =
          c.incoming.length := by
        rw [← List.length_append, List.take_append_drop]
      have hweight := weight_extend hstage (c.incoming.take count)
      refine .inr ?_
      change 7 * (c.incoming.drop count).length + 3 * (c.splitter.extend _).weight +
        2 * c.held.toList.length < 7 * c.incoming.length + _ + _
      omega
  · exact .inl (if_neg hwants)

theorem weight_advance (c : Connection) : c.advance = c ∨ c.advance.weight < c.weight := by
  unfold advance
  split
  · next out t hheld hstep =>
    have hweight := Splitter.weight_lt_of_advance? hstep
    have hout : out.toList.length ≤ 1 := by
      cases out with
      | none => exact Nat.zero_le 1
      | some payload => exact Nat.le_refl 1
    refine .inr ?_
    rw [weight, weight, hheld]
    change 7 * c.incoming.length + 3 * t.weight + 2 * out.toList.length <
      7 * c.incoming.length + 3 * c.splitter.weight + 0
    omega
  · exact .inl rfl

/-- Behind a length above the limit there is nothing to deliver. -/
theorem ahead_of_refused (h : c.splitter.stage = .refused) :
    c.ahead = ([], c.splitter.extend c.incoming) := by
  refine Splitter.unpack_of_stuck ?_
  rw [Splitter.advance?, Splitter.extend, h]

theorem advance?_of_stuck (hheld : c.held = none) (hadvance : c.advance = c) :
    c.splitter.advance? = none := by
  cases hstep : c.splitter.advance? with
  | none => rfl
  | some found =>
      obtain ⟨out, t⟩ := found
      rw [advance, hheld, hstep] at hadvance
      have hsame : t = c.splitter := congrArg splitter hadvance
      exact absurd (Splitter.weight_lt_of_advance? hstep) (hsame ▸ Nat.lt_irrefl _)

/-- A reader that cannot go on and gets no more bytes has them all, unless it has given up. -/
theorem incoming_of_stuck (hheld : c.held = none) (hadvance : c.advance = c)
    (harrive : c.arrive 1 = c) : c.splitter.stage = .refused ∨ c.incoming = [] := by
  by_cases hstage : c.splitter.stage = .refused
  · exact .inl hstage
  have hwants : c.wantsBytes = true := by
    rw [wantsBytes, hheld, advance?_of_stuck hheld hadvance]
    exact bne_iff_ne.mpr hstage
  rw [arrive, if_pos hwants] at harrive
  have hdrop : c.incoming.drop 1 = c.incoming := congrArg incoming harrive
  cases hbytes : c.incoming with
  | nil => exact .inr rfl
  | cons b rest =>
      rw [hbytes] at hdrop
      exact absurd (congrArg List.length hdrop) (Nat.ne_of_lt (Nat.lt_succ_self _))

/-- A reader that holds no message, cannot go on and gets no more bytes has nothing left
to deliver. -/
theorem backlog_of_stuck (hheld : c.held = none) (hadvance : c.advance = c)
    (harrive : c.arrive 1 = c) : c.backlog = [] := by
  rcases incoming_of_stuck hheld hadvance harrive with hrefused | hincoming
  · rw [backlog, ahead_of_refused hrefused, hheld]
    rfl
  · rw [backlog, ahead, hheld, hincoming, Splitter.extend_nil,
      Splitter.unpack_of_stuck (advance?_of_stuck hheld hadvance)]
    rfl

end LogRelay.Wire.Connection
