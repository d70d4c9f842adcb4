import LogRelay.Wire.Bytes
import LogRelay.Wire.Fault

/-!
# Frames

On a connection each message follows its length, which takes four bytes. A longer message than a
frame may hold is not sent. A reader takes bytes in chunks of any size and hands out each message
once it is complete; an announced length above the limit ends the reading for good, and a connection
that ends while bytes are waiting was cut off.
-/

namespace LogRelay.Wire

/-- The longest message that a frame may hold. -/
def maxFrameLength : Nat := 16 * 1024 * 1024

/-- The frame of a message, unless the message is too long. -/
def frame (payload : List UInt8) : Except TransportError (List UInt8) :=
  if maxFrameLength < payload.length then .error (.send .oversizedFrame)
  else .ok (bigEndian 4 payload.length ++ payload)

/-- What a reader of frames waits for. -/
inductive Stage where
  /-- The length of the next message. -/
  | length
  /-- The bytes of a message of known length. -/
  | payload (length : Nat)
  /-- Nothing any more: a length was above the limit. -/
  | refused
deriving DecidableEq, Repr

/-- A reader of frames. -/
structure Splitter where
  /-- What it waits for. -/
  stage : Stage := .length
  /-- Bytes that arrived and are not used yet. -/
  buffer : List UInt8 := []
deriving DecidableEq, Repr

namespace Splitter

/-- One step with the bytes at hand, if they suffice, and the message that it completes. -/
def advance? (s : Splitter) : Option (Option (List UInt8) × Splitter) :=
  match s.stage with
  | .length =>
    (cut? 4 s.buffer).map fun found =>
      let length := ofBigEndian found.1
      (none, ⟨if maxFrameLength < length then .refused else .payload length, found.2⟩)
  | .payload length =>
    (cut? length s.buffer).map fun found => (some found.1, ⟨.length, found.2⟩)
  | .refused => none

/-- A number that each step makes smaller. -/
def weight (s : Splitter) : Nat :=
  match s.stage with
  | .length => 2 * s.buffer.length
  | .payload _ => 2 * s.buffer.length + 1
  | .refused => 0

theorem weight_lt_of_advance? {s t : Splitter} {out : Option (List UInt8)}
    (h : s.advance? = some (out, t)) : t.weight < s.weight := by
  obtain ⟨stage, buffer⟩ := s
  cases stage with
  | length =>
    simp only [advance?, Option.map_eq_some_iff] at h
    obtain ⟨⟨front, rest⟩, hcut, heq⟩ := h
    obtain ⟨rfl, hlen⟩ := cut?_eq_some_iff.mp hcut
    cases heq
    simp only [weight, List.length_append, hlen]
    split <;> rename_i hstage <;> split at hstage <;> cases hstage <;> omega
  | payload length =>
    simp only [advance?, Option.map_eq_some_iff] at h
    obtain ⟨⟨front, rest⟩, hcut, heq⟩ := h
    obtain ⟨rfl, hlen⟩ := cut?_eq_some_iff.mp hcut
    cases heq
    simp only [weight, List.length_append]
    omega
  | refused => simp [advance?] at h

/-- The messages that the bytes at hand complete, and the reader after them. -/
def unpack (s : Splitter) : List (List UInt8) × Splitter :=
  match _h : s.advance? with
  | none => ([], s)
  | some (out, t) =>
    let later := unpack t
    (out.toList ++ later.1, later.2)
termination_by s.weight
decreasing_by exact weight_lt_of_advance? _h

/-- The messages that one more chunk completes, and the reader after it. -/
def feed (s : Splitter) (chunk : List UInt8) : List (List UInt8) × Splitter :=
  unpack { s with buffer := s.buffer ++ chunk }

/-- The messages of chunks that arrive one after another, and the reader after them. -/
def feedAll (s : Splitter) : List (List UInt8) → List (List UInt8) × Splitter
  | [] => ([], s)
  | chunk :: chunks =>
    let now := s.feed chunk
    let later := now.2.feedAll chunks
    (now.1 ++ later.1, later.2)

/-- What is wrong with a connection that ends now. After the length of a message nothing waits, so
the missing message is not noticed. -/
def endFault? (s : Splitter) : Option SystemFault :=
  if s.stage = .refused then some .oversizedFrame
  else if s.buffer.isEmpty then none
  else some .unfinishedFrame

end Splitter

/-- The messages of a connection that carries the given chunks and then ends, and what is wrong with
it. -/
def receive (chunks : List (List UInt8)) : List (List UInt8) × Option SystemFault :=
  let last := Splitter.feedAll {} chunks
  (last.1, last.2.endFault?)

end LogRelay.Wire
