import LogRelay.Wire.Dispatch

/-!
# Splitting a stream into frames

What the splitter makes of some bytes does not change when more bytes follow, so a stream may be
split in any chunks: unpacking the whole is unpacking the parts one after another. A stream of whole
frames is unpacked into their messages and leaves nothing behind.
-/

namespace LogRelay.Wire

/-- The bytes of frames one after another. -/
def frames (payloads : List (List UInt8)) : List UInt8 :=
  payloads.flatMap fun payload => bigEndian 4 payload.length ++ payload

theorem frames_append (front back : List (List UInt8)) :
    frames (front ++ back) = frames front ++ frames back :=
  List.flatMap_append

theorem frames_singleton (payload : List UInt8) :
    frames [payload] = bigEndian 4 payload.length ++ payload := by
  simp [frames]

namespace Splitter

/-- The splitter with more bytes at hand. -/
def extend (s : Splitter) (more : List UInt8) : Splitter :=
  { s with buffer := s.buffer ++ more }

variable {s t : Splitter} {out : Option (List UInt8)}

@[simp]
theorem extend_nil (s : Splitter) : s.extend [] = s := by
  rw [extend, List.append_nil]

theorem extend_extend (s : Splitter) (first second : List UInt8) :
    (s.extend first).extend second = s.extend (first ++ second) := by
  simp only [extend, List.append_assoc]

theorem cut?_append_right {n : Nat} {bs front rest : List UInt8}
    (h : cut? n bs = some (front, rest)) (more : List UInt8) :
    cut? n (bs ++ more) = some (front, rest ++ more) := by
  obtain ⟨rfl, hlength⟩ := cut?_eq_some_iff.mp h
  exact cut?_eq_some_iff.mpr ⟨List.append_assoc .., hlength⟩

/-- A step that is possible stays possible, and gives the same, when more bytes follow. -/
theorem advance?_extend (h : s.advance? = some (out, t)) (more : List UInt8) :
    (s.extend more).advance? = some (out, t.extend more) := by
  obtain ⟨stage, buffer⟩ := s
  cases stage with
  | length =>
      obtain ⟨⟨front, rest⟩, hcut, hstep⟩ := Option.map_eq_some_iff.mp h
      cases hstep
      exact Option.map_eq_some_iff.mpr ⟨_, cut?_append_right hcut more, rfl⟩
  | payload length =>
      obtain ⟨⟨front, rest⟩, hcut, hstep⟩ := Option.map_eq_some_iff.mp h
      cases hstep
      exact Option.map_eq_some_iff.mpr ⟨_, cut?_append_right hcut more, rfl⟩
  | refused => cases h

theorem unpack_of_advance? (h : s.advance? = some (out, t)) :
    s.unpack = (out.toList ++ t.unpack.1, t.unpack.2) := by
  rw [unpack]
  split
  · next hnone => cases h.symm.trans hnone
  · next hsome =>
    cases h.symm.trans hsome
    rfl

theorem unpack_of_stuck (h : s.advance? = none) : s.unpack = ([], s) := by
  rw [unpack]
  split
  · rfl
  · next hsome => cases h.symm.trans hsome

/-- Bytes that follow are unpacked by the splitter that the bytes before them left. -/
theorem unpack_extend (s : Splitter) (more : List UInt8) :
    (s.extend more).unpack =
      (s.unpack.1 ++ (s.unpack.2.extend more).unpack.1, (s.unpack.2.extend more).unpack.2) := by
  induction s using unpack.induct with
  | case1 s h =>
      rw [unpack_of_stuck h]
      rfl
  | case2 s out t h ih =>
      rw [unpack_of_advance? (advance?_extend h more), unpack_of_advance? h, ih, List.append_assoc]

/-! ## Whole frames -/

theorem unpack_frame {payload : List UInt8} (h : payload.length ≤ maxFrameLength) :
    unpack ⟨.length, bigEndian 4 payload.length ++ payload⟩ = ([payload], {}) := by
  have hnumber : ofBigEndian (bigEndian 4 payload.length) = payload.length := by
    rw [ofBigEndian_bigEndian, Nat.mod_eq_of_lt]
    exact Nat.lt_of_le_of_lt h (by decide)
  have hcut : cut? 4 (bigEndian 4 payload.length ++ payload) =
      some (bigEndian 4 payload.length, payload) :=
    cut?_eq_some_iff.mpr ⟨rfl, length_bigEndian 4 _⟩
  have hfirst : advance? ⟨.length, bigEndian 4 payload.length ++ payload⟩ =
      some (none, ⟨.payload payload.length, payload⟩) := by
    refine Option.map_eq_some_iff.mpr ⟨_, hcut, ?_⟩
    dsimp only
    rw [hnumber, if_neg (Nat.not_lt.mpr h)]
  have hwhole : cut? payload.length payload = some (payload, []) :=
    cut?_eq_some_iff.mpr ⟨(List.append_nil _).symm, rfl⟩
  have hsecond : advance? ⟨.payload payload.length, payload⟩ = some (some payload, {}) :=
    Option.map_eq_some_iff.mpr ⟨_, hwhole, rfl⟩
  have hdone : unpack {} = ([], {}) := unpack_of_stuck rfl
  rw [unpack_of_advance? hfirst, unpack_of_advance? hsecond, hdone]
  rfl

theorem unpack_frames {payloads : List (List UInt8)}
    (h : ∀ payload ∈ payloads, payload.length ≤ maxFrameLength) :
    unpack ⟨.length, frames payloads⟩ = (payloads, {}) := by
  induction payloads with
  | nil => exact unpack_of_stuck rfl
  | cons payload rest ih =>
      obtain ⟨hhead, htail⟩ := List.forall_mem_cons.mp h
      have happend := unpack_extend ⟨.length, bigEndian 4 payload.length ++ payload⟩ (frames rest)
      rw [unpack_frame hhead] at happend
      refine happend.trans ?_
      change ([payload] ++ (unpack ⟨.length, frames rest⟩).1, (unpack ⟨.length, frames rest⟩).2) = _
      rw [ih htail]
      rfl

end Splitter

end LogRelay.Wire
