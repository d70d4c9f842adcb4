import LogRelay.Proofs.Wire.Dispatch

/-!
# A stream of frames, in any chunks

What a reader makes of a stream is told by the stream alone: the longest sequence of messages, none
above the limit, with whose frames the stream begins. After them the reader is stuck inside a frame,
or for good behind a length above the limit. So what a writer gets through arrives as it is, however
the stream is cut.
-/

namespace LogRelay.Wire

/-! ## What was read since the last message -/

namespace Splitter

/-- The splitter has read the given bytes since it completed the last message. -/
def HasRead (s : Splitter) (bs : List UInt8) : Prop :=
  match s.stage with
  | .length => bs = s.buffer
  | .payload length => length ≤ maxFrameLength ∧ bs = bigEndian 4 length ++ s.buffer
  | .refused => ∃ head : List UInt8,
      head.length = 4 ∧ maxFrameLength < ofBigEndian head ∧ bs = head ++ s.buffer

variable {s t : Splitter} {bs : List UInt8} {out : Option (List UInt8)}

/-- A step completes the message that was read, if any, and starts afresh after it. -/
theorem HasRead.advance? (h : s.HasRead bs) (hstep : s.advance? = some (out, t)) :
    (∀ payload ∈ out, payload.length ≤ maxFrameLength) ∧
      ∃ rest, bs = frames out.toList ++ rest ∧ t.HasRead rest := by
  obtain ⟨stage, buffer⟩ := s
  cases stage with
  | length =>
      obtain rfl : bs = buffer := h
      obtain ⟨⟨head, rest⟩, hcut, heq⟩ := Option.map_eq_some_iff.mp hstep
      obtain ⟨rfl, hhead⟩ := cut?_eq_some_iff.mp hcut
      cases heq
      -- no message is complete yet, and the length is among the bytes read since the last one
      refine ⟨nofun, head ++ rest, rfl, ?_⟩
      dsimp only
      split
      · next hlimit => exact ⟨head, hhead, hlimit, rfl⟩
      · next hlimit =>
        refine ⟨Nat.not_lt.mp hlimit, ?_⟩
        rw [← hhead, bigEndian_ofBigEndian]
  | payload length =>
      obtain ⟨hlimit, rfl⟩ := h
      obtain ⟨⟨payload, rest⟩, hcut, heq⟩ := Option.map_eq_some_iff.mp hstep
      obtain ⟨rfl, rfl⟩ := cut?_eq_some_iff.mp hcut
      cases heq
      refine ⟨fun _ hpayload => ?_, rest, ?_, rfl⟩
      · obtain rfl := Option.mem_some.mp hpayload
        exact hlimit
      · rw [Option.toList_some, frames_singleton, List.append_assoc]
  | refused => cases hstep

theorem HasRead.unpack (h : s.HasRead bs) :
    (∀ payload ∈ s.unpack.1, payload.length ≤ maxFrameLength) ∧
      ∃ rest, bs = frames s.unpack.1 ++ rest ∧ s.unpack.2.HasRead rest := by
  induction s using unpack.induct generalizing bs with
  | case1 s hstuck =>
      rw [unpack_of_stuck hstuck]
      exact ⟨List.forall_mem_nil _, bs, rfl, h⟩
  | case2 s out t hstep ih =>
      obtain ⟨hout, middle, rfl, ht⟩ := h.advance? hstep
      obtain ⟨hlater, rest, rfl, hrest⟩ := ih ht
      rw [unpack_of_advance? hstep]
      refine ⟨?_, rest, ?_, hrest⟩
      · refine List.forall_mem_append.mpr
          ⟨fun payload hpayload => hout payload ?_, hlater⟩
        exact Option.mem_toList.mp hpayload
      · rw [frames_append, List.append_assoc]

theorem advance?_unpack (s : Splitter) : s.unpack.2.advance? = none := by
  induction s using unpack.induct with
  | case1 s hstuck => rwa [unpack_of_stuck hstuck]
  | case2 s out t hstep ih => rwa [unpack_of_advance? hstep]

/-- Chunks that arrive one after another make what their bytes make at once. -/
theorem feedAll_eq_unpack (h : s.advance? = none) (chunks : List (List UInt8)) :
    s.feedAll chunks = (s.extend chunks.flatten).unpack := by
  induction chunks generalizing s with
  | nil => rw [List.flatten_nil, extend_nil, unpack_of_stuck h, feedAll]
  | cons chunk rest ih =>
      have hnow := unpack_extend (s.extend chunk) rest.flatten
      rw [extend_extend] at hnow
      have hlater : (s.feed chunk).2.feedAll rest =
          ((s.feed chunk).2.extend rest.flatten).unpack := ih (advance?_unpack _)
      rw [List.flatten_cons, hnow, feedAll, hlater]
      rfl

end Splitter

/-- The length that the first four bytes of a stream announce. -/
def announced (bs : List UInt8) : Nat :=
  ofBigEndian (bs.take 4)

theorem announced_append {head : List UInt8} (h : head.length = 4) (bs : List UInt8) :
    announced (head ++ bs) = ofBigEndian head := by
  rw [announced, ← h, List.take_left]

/-- A splitter that cannot go on has not read all of a length, not all of a message, or a length
above the limit. -/
theorem Splitter.HasRead.cases_of_stuck {s : Splitter} {bs : List UInt8} (h : s.HasRead bs)
    (hstuck : s.advance? = none) :
    (s.stage = .length ∧ bs.length < 4) ∨
      (s.stage = .payload (announced bs) ∧ announced bs ≤ maxFrameLength ∧
        bs.length < 4 + announced bs) ∨
      (s.stage = .refused ∧ maxFrameLength < announced bs) := by
  obtain ⟨stage, buffer⟩ := s
  cases stage with
  | length =>
      obtain rfl : bs = buffer := h
      exact .inl ⟨rfl, cut?_eq_none_iff.mp (Option.map_eq_none_iff.mp hstuck)⟩
  | payload length =>
      obtain ⟨hlimit, rfl⟩ := h
      have hannounced : announced (bigEndian 4 length ++ buffer) = length := by
        rw [announced_append (length_bigEndian 4 length), ofBigEndian_bigEndian, Nat.mod_eq_of_lt]
        exact Nat.lt_of_le_of_lt hlimit (by decide)
      have hshort : buffer.length < length :=
        cut?_eq_none_iff.mp (Option.map_eq_none_iff.mp hstuck)
      refine .inr (.inl ?_)
      rw [hannounced, List.length_append, length_bigEndian]
      exact ⟨rfl, hlimit, Nat.add_lt_add_left hshort 4⟩
  | refused =>
      obtain ⟨head, hhead, hlimit, rfl⟩ := h
      rw [announced_append hhead]
      exact .inr (.inr ⟨rfl, hlimit⟩)

/-! ## The messages of a stream -/

/-- The messages of a stream: the longest sequence of messages, none above the limit, with whose
frames the stream begins. -/
structure IsFraming (stream : List UInt8) (payloads : List (List UInt8)) : Prop where
  small : ∀ payload ∈ payloads, payload.length ≤ maxFrameLength
  begins : frames payloads <+: stream
  longest : ∀ others : List (List UInt8), (∀ payload ∈ others, payload.length ≤ maxFrameLength) →
    frames others <+: stream → others <+: payloads

variable {stream : List UInt8} {payloads : List (List UInt8)}

/-- A stream has no other messages. -/
theorem IsFraming.unique {others : List (List UInt8)} (h : IsFraming stream payloads)
    (hothers : IsFraming stream others) : payloads = others :=
  (hothers.longest payloads h.small h.begins).eq_of_length_le
    (h.longest others hothers.small hothers.begins).length_le

/-- Whatever follows whole frames, their messages come first. -/
theorem unpack_frames_append (h : ∀ payload ∈ payloads, payload.length ≤ maxFrameLength)
    (more : List UInt8) :
    Splitter.unpack ⟨.length, frames payloads ++ more⟩ =
      (payloads ++ (Splitter.unpack ⟨.length, more⟩).1, (Splitter.unpack ⟨.length, more⟩).2) := by
  have happend := Splitter.unpack_extend ⟨.length, frames payloads⟩ more
  rw [Splitter.unpack_frames h] at happend
  exact happend

theorem isFraming_unpack (stream : List UInt8) :
    IsFraming stream (Splitter.unpack ⟨.length, stream⟩).1 := by
  obtain ⟨hsmall, rest, hrest, -⟩ := Splitter.HasRead.unpack (s := ⟨.length, stream⟩) rfl
  refine ⟨hsmall, ⟨rest, hrest.symm⟩, fun others hothers hbegins => ?_⟩
  obtain ⟨more, rfl⟩ := hbegins
  rw [unpack_frames_append hothers]
  exact List.prefix_append ..

theorem receive_eq_unpack (chunks : List (List UInt8)) :
    receive chunks =
      ((Splitter.unpack ⟨.length, chunks.flatten⟩).1,
        (Splitter.unpack ⟨.length, chunks.flatten⟩).2.endFault?) := by
  rw [receive, Splitter.feedAll_eq_unpack rfl]
  rfl

/-- Behind a length above the limit nothing is read any more. -/
theorem receive_append_of_refused {chunks : List (List UInt8)}
    (h : (Splitter.unpack ⟨.length, chunks.flatten⟩).2.stage = .refused)
    (more : List (List UInt8)) : (receive (chunks ++ more)).1 = (receive chunks).1 := by
  have hextend := Splitter.unpack_extend ⟨.length, chunks.flatten⟩ more.flatten
  have hstuck : ((Splitter.unpack ⟨.length, chunks.flatten⟩).2.extend more.flatten).advance? =
      none := by
    rw [Splitter.advance?, Splitter.extend, h]
  rw [Splitter.unpack_of_stuck hstuck, List.append_nil] at hextend
  rw [receive_eq_unpack, receive_eq_unpack, List.flatten_append]
  exact congrArg (fun result => result.1) hextend

/-- A stream in any chunks gives its messages, the longest sequence with whose frames it begins, and
then the reader waits inside a frame, or has met a length above the limit and stays there. Raw
messages that a writer sends arrive as they are, without those that no frame can hold. -/
theorem receive_any_chunks (chunks : List (List UInt8)) :
    IsFraming chunks.flatten (receive chunks).1 ∧
      (∀ others : List (List UInt8), others.flatten = chunks.flatten →
        receive others = receive chunks) ∧
      (∃ rest, chunks.flatten = frames (receive chunks).1 ++ rest ∧
        (rest.length < 4 ∨
          announced rest ≤ maxFrameLength ∧ rest.length < 4 + announced rest ∨
          maxFrameLength < announced rest ∧
            ∀ more, (receive (chunks ++ more)).1 = (receive chunks).1)) ∧
      ∀ payloads : List ByteArray,
        let sent := Transmission.ofDispatches (payloads.map .payload)
        sent.results = (payloads.map fun payload =>
          if maxFrameLength < payload.size then .refused (.send .oversizedFrame) else .sent) ∧
        sent.bytes = frames (Transmission.framable payloads) ∧
        (chunks.flatten = sent.bytes →
          receive chunks = (Transmission.framable payloads, none)) := by
  refine ⟨?_, fun others hflatten => ?_, ?_, fun payloads => ?_⟩
  · rw [receive_eq_unpack]
    exact isFraming_unpack chunks.flatten
  · rw [receive_eq_unpack, receive_eq_unpack, hflatten]
  · obtain ⟨-, rest, hrest, hread⟩ := Splitter.HasRead.unpack (s := ⟨.length, chunks.flatten⟩) rfl
    refine ⟨rest, ?_, ?_⟩
    · rw [receive_eq_unpack]
      exact hrest
    · rcases hread.cases_of_stuck (Splitter.advance?_unpack _) with
        ⟨-, hlength⟩ | ⟨-, hpayload⟩ | ⟨hrefused, hlimit⟩
      · exact .inl hlength
      · exact .inr (.inl hpayload)
      · exact .inr (.inr ⟨hlimit, receive_append_of_refused hrefused⟩)
  · intro sent
    have hsent : sent = _ := Transmission.ofDispatches_payload payloads
    refine ⟨by rw [hsent], by rw [hsent]; rfl, fun hbytes => ?_⟩
    have hframes : chunks.flatten = frames (Transmission.framable payloads) := by
      rw [hbytes, hsent]
      rfl
    rw [receive_eq_unpack, hframes, Splitter.unpack_frames
      fun _ => Transmission.length_le_of_mem_framable]
    rfl

end LogRelay.Wire
