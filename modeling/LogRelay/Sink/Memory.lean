import LogRelay.Sink.Basic

/-!
# Keeping records

A sink that keeps every record in arrival order.
-/

namespace LogRelay

/-- The records kept so far, in arrival order. -/
structure Memory where
  /-- The records. -/
  records : List LogRecord := []

namespace Memory

/-- How many records are kept. -/
def size (m : Memory) : Nat :=
  m.records.length

/-- Keeps one more record. -/
def push (m : Memory) (r : LogRecord) : Memory :=
  ⟨m.records ++ [r]⟩

/-- The messages of all records. -/
def messages (m : Memory) : Except FormatFault (List String) :=
  m.records.mapM LogRecord.text

/-- Whether at least `count` records are kept. -/
def holds (m : Memory) (count : Nat) : Bool :=
  count ≤ m.size

end Memory

/-- The sink that keeps records. -/
def Sink.memory : Sink Memory where
  handle m r := (m.push r, .taken)

end LogRelay
