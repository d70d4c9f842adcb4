import LogRelay.Power

/-!
# Durations

Spans of time in nanoseconds. Seconds are held in sixty-four bits, so there is a longest duration
and addition stops at it. The text of a duration uses the largest of the units second, millisecond,
microsecond and nanosecond that it reaches, with as many decimal places as its value needs.
-/

namespace LogRelay

/-- A span of time. -/
structure Duration where
  /-- Length in nanoseconds. -/
  nanos : Nat
deriving DecidableEq, Repr, Inhabited

namespace Duration

/-- Nanoseconds in a second. -/
def nanosPerSecond : Nat := 10 ^ 9

/-- The longest duration: 2 ^ 64 seconds less one nanosecond. -/
def longest : Duration := ⟨2 ^ 64 * nanosPerSecond - 1⟩

/-- No time at all. -/
def zero : Duration := ⟨0⟩

/-- A duration of seconds and nanoseconds. -/
def ofParts (seconds nanos : Nat) : Duration := ⟨seconds * nanosPerSecond + nanos⟩

/-- A whole number of seconds. -/
def ofSeconds (seconds : Nat) : Duration := ofParts seconds 0

/-- A whole number of milliseconds. -/
def ofMillis (millis : Nat) : Duration := ⟨millis * 10 ^ 6⟩

/-- The whole seconds of a duration. -/
def seconds (d : Duration) : Nat := d.nanos / nanosPerSecond

/-- What is left of a duration after its whole seconds, in nanoseconds. -/
def subsecond (d : Duration) : Nat := d.nanos % nanosPerSecond

/-- Sum of two durations, at most the longest one. -/
def add (a b : Duration) : Duration := ⟨min (a.nanos + b.nanos) longest.nanos⟩

instance : Add Duration := ⟨add⟩

instance : LE Duration := ⟨fun a b => a.nanos ≤ b.nanos⟩

instance : LT Duration := ⟨fun a b => a.nanos < b.nanos⟩

instance (a b : Duration) : Decidable (a ≤ b) := inferInstanceAs (Decidable (a.nanos ≤ b.nanos))

instance (a b : Duration) : Decidable (a < b) := inferInstanceAs (Decidable (a.nanos < b.nanos))

theorem nanos_add (a b : Duration) : (a + b).nanos = min (a.nanos + b.nanos) longest.nanos := rfl

/-- A number of units `10 ^ places` nanoseconds long, with the decimal places that are not zero. -/
def inUnit (places nanos : Nat) (unit : String) : String :=
  let whole := nanos / 10 ^ places
  let digits := Nat.toDigits 10 (nanos % 10 ^ places)
  let padded := List.replicate (places - digits.length) '0' ++ digits
  let fraction := (padded.reverse.dropWhile (· = '0')).reverse
  let point := if nanos % 10 ^ places = 0 then [] else '.' :: fraction
  whole.repr ++ String.ofList point ++ unit

/-- The text of a duration. -/
def display (d : Duration) : String :=
  if 10 ^ 9 ≤ d.nanos then inUnit 9 d.nanos "s"
  else if 10 ^ 6 ≤ d.nanos then inUnit 6 d.nanos "ms"
  else if 10 ^ 3 ≤ d.nanos then inUnit 3 d.nanos "\u00b5s"
  else inUnit 0 d.nanos "ns"

end Duration

end LogRelay
