import LogRelay.Config

/-!
# The queue

Messages wait for the worker in a queue with room for a fixed number of them. What comes first
leaves first; nothing comes in while there is no room.
-/

namespace LogRelay.Wire

/-- A queue with limited room. -/
structure Queue (α : Type) where
  /-- How much it may hold. -/
  capacity : Nat
  /-- What it holds, the first to leave in front. -/
  items : List α := []
deriving DecidableEq, Repr

namespace Queue

variable {α : Type}

/-- The empty queue of a depth. There is room for one thing at least. -/
def ofDepth (depth : Nat) : Queue α where
  capacity := min (max 1 depth) Config.maxDepth

/-- The queue after something came in, if there is room. -/
def push? (q : Queue α) (a : α) : Option (Queue α) :=
  if q.items.length < q.capacity then some { q with items := q.items ++ [a] } else none

/-- What leaves next, and the queue without it. -/
def pop? (q : Queue α) : Option (α × Queue α) :=
  match q.items with
  | [] => none
  | a :: rest => some (a, { q with items := rest })

variable {q next : Queue α} {a : α}

theorem push?_eq_some_iff :
    q.push? a = some next ↔
      q.items.length < q.capacity ∧ next = { q with items := q.items ++ [a] } := by
  simp [push?, eq_comm]

theorem pop?_eq_some_iff :
    q.pop? = some (a, next) ↔ q.items = a :: next.items ∧ next.capacity = q.capacity := by
  obtain ⟨capacity, items⟩ := q
  obtain ⟨nextCapacity, rest⟩ := next
  cases items with
  | nil => simp [pop?]
  | cons b bs => simp [pop?, and_comm, and_left_comm, eq_comm]

end Queue

end LogRelay.Wire
