import LogRelay.Wire.Frame

/-!
# Connections

A connection and the reader at its end. Bytes arrive in the order in which they were written, some
at a time. The reader asks for more only when it can do nothing with those it has, and while a
message that it has completed waits for room in the queue it does nothing at all.
-/

namespace LogRelay.Wire

/-- A connection with its reader. -/
structure Connection where
  /-- Bytes on their way, in order. -/
  incoming : List UInt8 := []
  /-- The reader of frames. -/
  splitter : Splitter := {}
  /-- A message that waits for room in the queue. -/
  held : Option (List UInt8) := none
deriving DecidableEq, Repr

namespace Connection

/-- More bytes are written. -/
def write (c : Connection) (bs : List UInt8) : Connection :=
  { c with incoming := c.incoming ++ bs }

/-- Whether the reader waits for bytes. -/
def wantsBytes (c : Connection) : Bool :=
  c.held.isNone && c.splitter.advance?.isNone && c.splitter.stage != .refused

/-- The next `count` bytes arrive, if the reader waits for them. -/
def arrive (c : Connection) (count : Nat) : Connection :=
  if c.wantsBytes then
    { c with
      incoming := c.incoming.drop count
      splitter := { c.splitter with buffer := c.splitter.buffer ++ c.incoming.take count } }
  else c

/-- The reader takes one step with the bytes it has, and holds the message that the step
completes. -/
def advance (c : Connection) : Connection :=
  match c.held, c.splitter.advance? with
  | none, some (out, t) => { c with splitter := t, held := out }
  | _, _ => c

end Connection

end LogRelay.Wire
