import Protobuf.Text.Quote
import Protobuf.Wire.Error
import Protobuf.Wire.Key

/-! # Codec errors

Why bytes are no message of a type, or a message cannot be written. -/

namespace Protobuf

open Text

/-- Why a message cannot be read or written. -/
inductive CodecError
  /-- The bytes are at fault, whatever the type. -/
  | malformed (error : Wire.Error)
  /-- A record is laid out otherwise than its field. -/
  | wireTypeMismatch (offset : Nat) (message field : String) (tag : Nat)
      (expected actual : Wire.WireType)
  /-- There is no codec for a type. -/
  | unknownMessage (name : String)
  /-- A field is set that the type does not have. -/
  | unknownField (message : String) (tag : Nat)
  /-- A field holds a value of another kind. -/
  | valueMismatch (message field expected : String)
  /-- Two members of a group are set. -/
  | oneofConflict (message group : String)
deriving DecidableEq, Repr

namespace CodecError

/-- Where the bytes are at fault, if they are. -/
def offset? : CodecError → Option Nat
  | .malformed error => some error.offset
  | .wireTypeMismatch offset .. => some offset
  | _ => none

/-- The words for an error. -/
def message : CodecError → String
  | .malformed error => error.message
  | .wireTypeMismatch offset message field tag expected actual =>
    "at offset " ++ toString offset ++ ": field " ++ Quote.json field ++ " (tag " ++
      toString tag ++ ") of " ++ Quote.json message ++ " expects wire type " ++ expected.name ++
      ", found " ++ actual.name
  | .unknownMessage name => "no codec for message type " ++ Quote.json name
  | .unknownField message tag =>
    Quote.json message ++ " has no field with tag " ++ toString tag
  | .valueMismatch message field expected =>
    "value of field " ++ Quote.json field ++ " of " ++ Quote.json message ++ " is not " ++ expected
  | .oneofConflict message group =>
    "more than one member of oneof " ++ Quote.json group ++ " is set on " ++ Quote.json message

end CodecError

end Protobuf
