import LogRelay.Record.Basic

/-!
# Sinks

A sink takes the received records one at a time. It may keep a state, and each call ends in one of
three ways; the relay goes on after each of them.
-/

namespace LogRelay

/-- How a sink ends a call. -/
inductive Outcome where
  /-- The record was taken. -/
  | taken
  /-- The record was refused for a reason. -/
  | rejected (reason : String)
  /-- The sink broke down; `reason` is empty if it left no text. -/
  | panicked (reason : String)
deriving DecidableEq, Repr

/-- A sink with states of type `σ`. -/
structure Sink (σ : Type) where
  /-- Takes one record. -/
  handle : σ → LogRecord → σ × Outcome

/-- What is reported about a failed call. -/
inductive SinkError where
  /-- The sink refused a record. -/
  | rejected (reason : String)
  /-- The sink broke down over a record of a logger. -/
  | panicked (logger : String)
deriving DecidableEq, Repr

/-- The text of the report. -/
def SinkError.message : SinkError → String
  | .rejected reason => "Sink rejected record: " ++ reason
  | .panicked logger =>
    "Sink panicked while handling a record from logger \x27" ++ logger ++ "\x27"

end LogRelay
