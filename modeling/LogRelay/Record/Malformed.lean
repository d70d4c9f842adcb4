import LogRelay.MessagePack.Reader
import LogRelay.Record.Field

/-!
# Malformed records

Why a received message is no log record.
-/

namespace LogRelay

/-- Why a message or a list of fields is no log record. -/
inductive MalformedRecord where
  /-- No value could be read. -/
  | undecodable (cause : MessagePack.ReadError)
  /-- Bytes follow the value. -/
  | trailingBytes (count : Nat)
  /-- The value is not a map. -/
  | notAMapping (found : Value.Kind)
  /-- A key is not a text; `found` says what it is. -/
  | invalidKey (found : String)
  /-- A field that has to be text holds a byte string that is not UTF-8. -/
  | invalidUtf8 (key : String)
  /-- A well-known field breaks its type rule. -/
  | fieldType (field : Field) (expected : Field.Rule) (found : Value.Kind)
deriving DecidableEq, Repr

/-- The text of the report. -/
def MalformedRecord.message : MalformedRecord → String
  | .undecodable cause => "undecodable payload: " ++ cause.message
  | .trailingBytes count => count.repr ++ " unexpected bytes after the message"
  | .notAMapping found => "expected a record mapping, got " ++ found.name
  | .invalidKey found => "record key must be text, got " ++ found
  | .invalidUtf8 key => "field \x27" ++ key ++ "\x27 is not valid UTF-8"
  | .fieldType field expected found =>
    "field \x27" ++ field.key ++ "\x27 expected " ++ expected.name ++ ", got " ++ found.name

end LogRelay
