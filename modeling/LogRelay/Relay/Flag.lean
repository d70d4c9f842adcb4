import LogRelay.Duration

/-!
# Waiting for a flag

The controller and the worker meet over flags that one of them sets. A wait for a flag ends when it
is set, at once if it already is, and otherwise when its time is over. The clock counts nanoseconds.
-/

namespace LogRelay.Flag

/-- Whether a flag that is set at a moment, or never, is set by now. -/
def isSetBy (setAt : Option Nat) (now : Nat) : Bool :=
  setAt.any (· ≤ now)

/-- A wait for a flag. -/
structure Wait where
  /-- Whether the flag was set in time. -/
  signalled : Bool
  /-- When the wait ends. -/
  endsAt : Nat
deriving DecidableEq, Repr

/-- The wait from `start`, for at most `limit` nanoseconds, for a flag that is set at a moment or
never. -/
def await (setAt : Option Nat) (start limit : Nat) : Wait :=
  match setAt with
  | some moment =>
    if moment ≤ start + limit then ⟨true, max start moment⟩ else ⟨false, start + limit⟩
  | none => ⟨false, start + limit⟩

theorem isSetBy_mono {setAt : Option Nat} {now later : Nat} (hle : now ≤ later)
    (h : isSetBy setAt now = true) : isSetBy setAt later = true := by
  cases setAt with
  | none => cases h
  | some moment =>
    have hmoment : moment ≤ now := of_decide_eq_true h
    exact decide_eq_true (Nat.le_trans hmoment hle)

theorem signalled_await (setAt : Option Nat) (start limit : Nat) :
    (await setAt start limit).signalled = isSetBy setAt (start + limit) := by
  cases setAt with
  | none => rfl
  | some moment =>
    by_cases hle : moment ≤ start + limit <;> simp [await, isSetBy, hle]

theorem endsAt_of_le {moment start limit : Nat} (h : moment ≤ start + limit) :
    (await (some moment) start limit).endsAt = max start moment := by
  simp [await, h]

theorem endsAt_le {setAt : Option Nat} {start limit : Nat} :
    (await setAt start limit).endsAt ≤ start + limit := by
  unfold await
  split
  · split
    · next h => exact Nat.max_le.mpr ⟨Nat.le_add_right start limit, h⟩
    · exact Nat.le_refl _
  · exact Nat.le_refl _

theorem endsAt_of_not_signalled {setAt : Option Nat} {start limit : Nat}
    (h : (await setAt start limit).signalled = false) :
    (await setAt start limit).endsAt = start + limit := by
  cases setAt with
  | none => rfl
  | some moment =>
    by_cases hle : moment ≤ start + limit
    · simp [await, hle] at h
    · simp [await, hle]

end LogRelay.Flag
