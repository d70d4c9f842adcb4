import LogRelay.Proofs.Wire.Frame

/-!
# What becomes of a call

A call of a writer fails by itself, because its fields are no record or its message is too long for
a frame, or its message is sent. What it is answered and what is sent is told here by its message
alone. On the connection there are then the frames of the messages that are sent, and nothing of the
others.
-/

namespace LogRelay

namespace Dispatch

theorem send_of_long {d : Dispatch} {payload : List UInt8} (hmessage : d.message = .ok payload)
    (hlong : Wire.maxFrameLength < payload.length) :
    d.send = (.refused (.send .oversizedFrame), none) := by
  rw [send, hmessage]
  dsimp only
  rw [Wire.frame, if_pos hlong]

theorem send_of_short {d : Dispatch} {payload : List UInt8} (hmessage : d.message = .ok payload)
    (hshort : payload.length ≤ Wire.maxFrameLength) : d.send = (.sent, some payload) := by
  rw [send, hmessage]
  dsimp only
  rw [Wire.frame, if_neg (Nat.not_lt.mpr hshort)]

theorem send_of_malformed {d : Dispatch} {e : MalformedRecord} (hmessage : d.message = .error e) :
    d.send = (.malformed e, none) := by
  rw [send, hmessage]

/-- The answer to a call, as its message has it. -/
inductive Answers (d : Dispatch) : SendResult → Prop
  | malformed {e : MalformedRecord} (message : d.message = .error e) : Answers d (.malformed e)
  | long {payload : List UInt8} (message : d.message = .ok payload)
      (long : Wire.maxFrameLength < payload.length) : Answers d (.refused (.send .oversizedFrame))
  | short {payload : List UInt8} (message : d.message = .ok payload)
      (short : payload.length ≤ Wire.maxFrameLength) : Answers d .sent

/-- The message of a call, unless its fields are no record or no frame can hold it. -/
def framed? (d : Dispatch) : Option (List UInt8) :=
  d.message.toOption.filter fun payload => payload.length ≤ Wire.maxFrameLength

variable {d : Dispatch} {payload : List UInt8}

theorem framed?_eq_some_iff :
    d.framed? = some payload ↔ d.message = .ok payload ∧ payload.length ≤ Wire.maxFrameLength := by
  rw [framed?, Option.filter_eq_some_iff, decide_eq_true_eq]
  refine and_congr_left fun _ => ?_
  cases d.message with
  | error e => simp [Except.toOption]
  | ok bytes => simp [Except.toOption]

theorem framed?_of_malformed {e : MalformedRecord} (hmessage : d.message = .error e) :
    d.framed? = none := by
  rw [framed?, hmessage]
  rfl

theorem framed?_of_long (hmessage : d.message = .ok payload)
    (hlong : Wire.maxFrameLength < payload.length) : d.framed? = none := by
  simp [framed?, hmessage, Except.toOption, hlong]

/-- What becomes of a call by itself is what its message says. -/
theorem send_eq (d : Dispatch) : d.Answers d.send.1 ∧ d.send.2 = d.framed? := by
  cases hmessage : d.message with
  | error e =>
      rw [send_of_malformed hmessage, framed?_of_malformed hmessage]
      exact ⟨.malformed hmessage, rfl⟩
  | ok payload =>
      rcases Nat.lt_or_ge Wire.maxFrameLength payload.length with hlong | hshort
      · rw [send_of_long hmessage hlong, framed?_of_long hmessage hlong]
        exact ⟨.long hmessage hlong, rfl⟩
      · rw [send_of_short hmessage hshort, framed?_eq_some_iff.mpr ⟨hmessage, hshort⟩]
        exact ⟨.short hmessage hshort, rfl⟩

theorem Answers.of_long {result : SendResult} (h : d.Answers result)
    (hmessage : d.message = .ok payload) (hlong : Wire.maxFrameLength < payload.length) :
    result = .refused (.send .oversizedFrame) := by
  cases h with
  | malformed message => cases message.symm.trans hmessage
  | long => rfl
  | short message short =>
      cases message.symm.trans hmessage
      exact absurd hlong (Nat.not_lt.mpr short)

theorem bytes_eq_frames (d : Dispatch) :
    (Transmission.ofDispatches [d]).bytes = Wire.frames d.framed?.toList := by
  rw [← d.send_eq.2, Transmission.bytes, Transmission.ofDispatches, Wire.frames,
    List.map_singleton, List.filterMap_cons, List.filterMap_nil]
  cases d.send.2 with
  | none => rfl
  | some payload => rfl

theorem send_payload (payload : ByteArray) :
    (Dispatch.payload payload).send =
      if Wire.maxFrameLength < payload.size then (.refused (.send .oversizedFrame), none)
      else (.sent, some payload.data.toList) := by
  have hmessage : (Dispatch.payload payload).message = .ok payload.data.toList := rfl
  have hlength : payload.data.toList.length = payload.size := Array.length_toList
  split
  · next hlong => exact send_of_long hmessage (hlength ▸ hlong)
  · next hshort => exact send_of_short hmessage (hlength ▸ Nat.not_lt.mp hshort)

end Dispatch

namespace Transmission

/-- The raw messages that a frame can hold, in order. -/
def framable (payloads : List ByteArray) : List (List UInt8) :=
  (payloads.filter fun payload => payload.size ≤ Wire.maxFrameLength).map fun payload =>
    payload.data.toList

theorem length_le_of_mem_framable {payloads : List ByteArray} {payload : List UInt8}
    (h : payload ∈ framable payloads) : payload.length ≤ Wire.maxFrameLength := by
  obtain ⟨bytes, hbytes, rfl⟩ := List.mem_map.mp h
  obtain ⟨-, hsize⟩ := List.mem_filter.mp hbytes
  rw [Array.length_toList]
  exact of_decide_eq_true hsize

theorem ofDispatches_cons (d : Dispatch) (rest : List Dispatch) :
    ofDispatches (d :: rest) =
      ⟨d.send.1 :: (ofDispatches rest).results,
        d.send.2.toList ++ (ofDispatches rest).messages⟩ := by
  simp only [ofDispatches, List.map_cons, List.filterMap_cons]
  cases d.send.2 with
  | none => rfl
  | some payload => rfl

theorem ofDispatches_payload (payloads : List ByteArray) :
    ofDispatches (payloads.map .payload) =
      ⟨payloads.map fun payload =>
          if Wire.maxFrameLength < payload.size then .refused (.send .oversizedFrame) else .sent,
        framable payloads⟩ := by
  induction payloads with
  | nil => rfl
  | cons payload rest ih =>
      rw [List.map_cons, ofDispatches_cons, ih, Dispatch.send_payload]
      by_cases hlong : Wire.maxFrameLength < payload.size
      · have hlimit : ¬ payload.size ≤ Wire.maxFrameLength := Nat.not_le.mpr hlong
        simp [framable, hlong, hlimit]
      · have hlimit : payload.size ≤ Wire.maxFrameLength := Nat.not_lt.mp hlong
        simp [framable, hlong, hlimit]

end Transmission

end LogRelay
