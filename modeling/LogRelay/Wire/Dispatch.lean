import LogRelay.Envelope
import LogRelay.Wire.Frame

/-!
# Sending

What a writer asks to have sent, and what becomes of it on one connection. A list of fields that is
no record and a message that no frame can hold leave no trace on the connection, so what follows
them is not disturbed.
-/

namespace LogRelay

/-- One thing that a writer asks to have sent. -/
inductive Dispatch where
  /-- The request to stop. -/
  | sentinel
  /-- A record. -/
  | record (r : LogRecord)
  /-- The record that a list of fields describes. -/
  | fields (entries : List (String × Value))
  /-- A message as it is. -/
  | payload (bytes : ByteArray)

/-- What becomes of one thing that a writer asks to have sent. -/
inductive SendResult where
  /-- It is on its way. -/
  | sent
  /-- The fields are no record. -/
  | malformed (e : MalformedRecord)
  /-- The message was refused. -/
  | refused (e : TransportError)

namespace Dispatch

/-- The message to be sent. -/
def message : Dispatch → Except MalformedRecord (List UInt8)
  | .sentinel => .ok LogRelay.sentinel
  | .record r => .ok r.encode
  | .fields entries => (LogRecord.ofFields entries).map LogRecord.encode
  | .payload bytes => .ok bytes.data.toList

/-- What becomes of it, and the message if it is on its way. -/
def send (d : Dispatch) : SendResult × Option (List UInt8) :=
  match d.message with
  | .error e => (.malformed e, none)
  | .ok bytes =>
    match Wire.frame bytes with
    | .error e => (.refused e, none)
    | .ok _ => (.sent, some bytes)

end Dispatch

/-- What becomes of all that a writer sends on one connection. -/
structure Transmission where
  /-- The result of each. -/
  results : List SendResult
  /-- The messages that are on their way. -/
  messages : List (List UInt8)

namespace Transmission

/-- Sends one thing after another. -/
def ofDispatches (dispatches : List Dispatch) : Transmission :=
  let all := dispatches.map Dispatch.send
  ⟨all.map (·.1), all.filterMap (·.2)⟩

/-- The bytes on the connection. -/
def bytes (t : Transmission) : List UInt8 :=
  t.messages.flatMap fun payload => Wire.bigEndian 4 payload.length ++ payload

end Transmission

end LogRelay
