import LogRelay.MessagePack.Reader
import LogRelay.MessagePack.Writer
import LogRelay.Record.Fields
import LogRelay.Value.Textual

/-!
# Envelopes

A message is one encoded value: nil is the sentinel that asks the relay to stop, a map is a log
record, and nothing else is allowed, nor bytes after the value. Byte strings that spell texts
count as those texts, in keys and in values at any depth, so older writers are understood.
-/

namespace LogRelay

/-- The message that asks the relay to stop. -/
def sentinel : List UInt8 := [0xc0]

/-- What a message means. -/
inductive Envelope where
  /-- The request to stop. -/
  | sentinel
  /-- A log record. -/
  | record (r : LogRecord)

/-- A key of a record map in textual form. -/
def textualKey : Value → Except MalformedRecord Value
  | .bytes bs =>
    match Text.ofUtf8? bs with
    | some s => .ok (.text s)
    | none => .error (.invalidKey ("non UTF-8 bytes b\x27" ++ Text.escapeBytes bs ++ "\x27"))
  | v => .ok v

/-- Whether a field of that name, if it is well known, has to be text. -/
def isTextualKey (key : String) : Bool :=
  ((Field.ofKey? key).map Field.isTextual).getD false

/-- An entry of a record map in textual form. Keys have to be UTF-8, and so do the values of the
well-known fields that are texts. -/
def textualEntry (entry : Value × Value) : Except MalformedRecord (Value × Value) := do
  let key ← textualKey entry.1
  let value := entry.2.textual
  match key, value with
  | .text k, .bytes _ => if isTextualKey k then .error (.invalidUtf8 k) else .ok (key, value)
  | _, _ => .ok (key, value)

/-- A record map in textual form. -/
def textualRecord (entries : List (Value × Value)) :
    Except MalformedRecord (List (Value × Value)) :=
  entries.mapM textualEntry

/-- An entry of a record map by its text key. -/
def namedEntry (entry : Value × Value) : Except MalformedRecord (String × Value) :=
  match entry.1 with
  | .text key => .ok (key, entry.2)
  | key => .error (.invalidKey key.kind.name)

namespace Envelope

/-- The meaning of a value that is not the sentinel. -/
def ofValue : Value → Except MalformedRecord Envelope
  | .map entries => do
    let entries ← textualRecord entries
    let fields ← entries.mapM namedEntry
    let r ← LogRecord.ofFields fields
    .ok (.record r)
  | v => .error (.notAMapping v.kind)

/-- The meaning of a message. -/
def decode (payload : List UInt8) : Except MalformedRecord Envelope :=
  if payload = LogRelay.sentinel then .ok .sentinel
  else
    match MessagePack.read payload with
    | .error cause => .error (.undecodable cause)
    | .ok (v, rest) =>
      if rest.isEmpty then ofValue v else .error (.trailingBytes rest.length)

end Envelope

/-- A record as the value of a message. -/
def LogRecord.toValue (r : LogRecord) : Value :=
  .map (r.toFields.map fun entry => (.text entry.1, entry.2))

/-- The message that carries a record. -/
def LogRecord.encode (r : LogRecord) : List UInt8 :=
  MessagePack.pack r.toValue

end LogRelay
