import LogRelay.Event
import LogRelay.Sink.Basic

/-!
# Passing records on as events

A sink that turns each record of at least a given level into an event of the relay's own log.
Members that a record does not have are left out.
-/

namespace LogRelay

/-- Named values, those that are absent left out. -/
def presentValues (values : List (String × Option EventValue)) : List (String × EventValue) :=
  values.filterMap fun entry => entry.2.map fun value => (entry.1, value)

namespace LogRecord

/-- The event that passes on a record with its rendered message. -/
def toEvent (r : LogRecord) (message : String) : Event where
  level := r.level.eventLevel
  origin := .forwarded
  message := message
  values := presentValues
    [("logger", some (.plain r.name)), ("pathname", r.pathname.map .quoted),
      ("lineno", r.lineno.map .int), ("process", r.process.map fun u => .uint u.toNat),
      ("process_name", r.processName.map .quoted), ("exc_text", r.excText.map .quoted)]

/-- The event of a record, unless its level is below `minLevel`. -/
def forward? (minLevel : Level) (r : LogRecord) : Except FormatFault (Option Event) :=
  if r.level < minLevel then .ok none else r.text.map fun message => some (r.toEvent message)

end LogRecord

/-- The sink that passes records on; its state lists the events so far. A record that cannot
be shown breaks the call. -/
def Sink.forward (minLevel : Level) : Sink (List Event) where
  handle events r :=
    match r.forward? minLevel with
    | .ok none => (events, .taken)
    | .ok (some event) => (events ++ [event], .taken)
    | .error fault => (events, .panicked fault.message)

end LogRelay
