import LogRelay.Power

/-!
# Big-endian numbers and exact cuts

Numbers of a fixed width in bytes, the most significant byte first, and the cut of an exact count of
bytes off the front of a list. A number that needs more bytes than it is given keeps its low ones.
-/

namespace LogRelay.Wire

/-- The `width` low bytes of a number, most significant first. -/
def bigEndian : Nat → Nat → List UInt8
  | 0, _ => []
  | width + 1, n => UInt8.ofNat (n / 256 ^ width) :: bigEndian width n

/-- The number whose big-endian digits to the base 256 are the given bytes. -/
def ofBigEndian (bs : List UInt8) : Nat :=
  bs.foldl (fun n b => n * 256 + b.toNat) 0

/-- The first `n` elements and what follows them, if there are that many. -/
def cut? {α : Type} (n : Nat) (xs : List α) : Option (List α × List α) :=
  let (front, rest) := xs.splitAt n
  if front.length = n then some (front, rest) else none

@[simp]
theorem length_bigEndian (width n : Nat) : (bigEndian width n).length = width := by
  induction width with
  | zero => rfl
  | succ width ih => simp [bigEndian, ih]

theorem foldl_bigEndian (width n acc : Nat) :
    (bigEndian width n).foldl (fun m b => m * 256 + b.toNat) acc =
      acc * 256 ^ width + n % 256 ^ width := by
  induction width generalizing acc with
  | zero => simp [bigEndian, Nat.mod_one]
  | succ width ih =>
    have hsplit :
        n % 256 ^ (width + 1) = n / 256 ^ width % 256 * 256 ^ width + n % 256 ^ width := by
      rw [Nat.pow_succ, Nat.mod_mul, Nat.add_comm, Nat.mul_comm]
    have hbyte : (UInt8.ofNat (n / 256 ^ width)).toNat = n / 256 ^ width % 256 := rfl
    rw [bigEndian, List.foldl_cons, ih, hbyte, hsplit, Nat.add_mul, Nat.mul_assoc,
      Nat.mul_comm 256, ← Nat.pow_succ, Nat.add_assoc]

/-- Reading gives back the low bytes of what was written. -/
theorem ofBigEndian_bigEndian (width n : Nat) :
    ofBigEndian (bigEndian width n) = n % 256 ^ width := by
  simp [ofBigEndian, foldl_bigEndian]

theorem foldl_lt (bs : List UInt8) (acc : Nat) :
    bs.foldl (fun n b => n * 256 + b.toNat) acc < (acc + 1) * 256 ^ bs.length := by
  induction bs generalizing acc with
  | nil => simp
  | cons b bs ih =>
    have hbyte : b.toNat < 256 := b.toNat_lt
    calc
      (b :: bs).foldl (fun n b => n * 256 + b.toNat) acc
          < (acc * 256 + b.toNat + 1) * 256 ^ bs.length := ih _
      _ ≤ ((acc + 1) * 256) * 256 ^ bs.length := Nat.mul_le_mul_right _ (by omega)
      _ = (acc + 1) * 256 ^ (b :: bs).length := by
        rw [List.length_cons, Nat.pow_succ', Nat.mul_assoc]

theorem ofBigEndian_lt (bs : List UInt8) : ofBigEndian bs < 2 ^ (8 * bs.length) := by
  have h := foldl_lt bs 0
  rwa [Nat.zero_add, Nat.one_mul, show 256 = 2 ^ 8 from rfl, ← Nat.pow_mul] at h

/-- A number keeps its low digits when digits are put in front. -/
theorem bigEndian_mul_add (width high low : Nat) :
    bigEndian width (high * 256 ^ width + low) = bigEndian width low := by
  induction width generalizing high with
  | zero => rfl
  | succ width ih =>
      have hsplit : high * 256 ^ (width + 1) + low = high * 256 * 256 ^ width + low := by
        rw [Nat.pow_succ', Nat.mul_assoc]
      have hdigit : (high * 256 * 256 ^ width + low) / 256 ^ width =
          high * 256 + low / 256 ^ width := by
        rw [Nat.add_comm, Nat.add_mul_div_right _ _ (Nat.pow_pos (by decide)), Nat.add_comm]
      rw [hsplit, bigEndian, bigEndian, ih, hdigit]
      congr 1
      apply UInt8.toNat_inj.mp
      simp

theorem foldl_eq_add_ofBigEndian (bs : List UInt8) (acc : Nat) :
    bs.foldl (fun n b => n * 256 + b.toNat) acc = acc * 256 ^ bs.length + ofBigEndian bs := by
  induction bs generalizing acc with
  | nil => simp [ofBigEndian]
  | cons b bs ih =>
      rw [ofBigEndian, List.foldl_cons, List.foldl_cons, ih, ih, List.length_cons, Nat.pow_succ',
        Nat.zero_mul, Nat.zero_add, Nat.add_mul, Nat.mul_assoc, Nat.add_assoc]

theorem ofBigEndian_cons (b : UInt8) (bs : List UInt8) :
    ofBigEndian (b :: bs) = b.toNat * 256 ^ bs.length + ofBigEndian bs := by
  rw [ofBigEndian, List.foldl_cons, foldl_eq_add_ofBigEndian, Nat.zero_mul, Nat.zero_add]

theorem bigEndian_ofBigEndian (bs : List UInt8) : bigEndian bs.length (ofBigEndian bs) = bs := by
  induction bs with
  | nil => rfl
  | cons b bs ih =>
      have hlow : ofBigEndian bs < 256 ^ bs.length := by
        have h := ofBigEndian_lt bs
        rwa [Nat.pow_mul] at h
      have hdigit : (b.toNat * 256 ^ bs.length + ofBigEndian bs) / 256 ^ bs.length = b.toNat := by
        rw [Nat.add_comm, Nat.add_mul_div_right _ _ (Nat.pow_pos (by decide)),
          Nat.div_eq_of_lt hlow, Nat.zero_add]
      rw [List.length_cons, ofBigEndian_cons, bigEndian, bigEndian_mul_add, hdigit, ih]
      simp

theorem cut?_eq_some_iff {α : Type} {n : Nat} {xs front rest : List α} :
    cut? n xs = some (front, rest) ↔ xs = front ++ rest ∧ front.length = n := by
  simp only [cut?, List.splitAt_eq]
  constructor
  · intro h
    split at h
    · next hlen =>
      cases h
      exact ⟨(List.take_append_drop n xs).symm, hlen⟩
    · cases h
  · rintro ⟨rfl, rfl⟩
    simp

@[simp]
theorem cut?_append {α : Type} (front rest : List α) :
    cut? front.length (front ++ rest) = some (front, rest) :=
  cut?_eq_some_iff.mpr ⟨rfl, rfl⟩

theorem cut?_eq_none_iff {α : Type} {n : Nat} {xs : List α} : cut? n xs = none ↔ xs.length < n := by
  simp only [cut?, List.splitAt_eq, List.length_take]
  split
  · simp; omega
  · simp; omega

end LogRelay.Wire
