import Protobuf.Codec.Decode
import Protobuf.Json.Document

/-! # Messages as JSON

The JSON form of messages whose codecs are at hand: an object with a member for each field that is
set, under the name of the field, by ascending name. Keys of maps become texts. Of two members
with one name, the later one is kept. -/

namespace Protobuf.CodecSet

/-- The text of a map key. -/
def keyText : Json → String
  | .text text => text
  | other => other.compact

/-- An object of members, by ascending name. -/
def sortedObject (members : List (String × Json)) : Json :=
  .object (members.foldl (fun object (name, value) => Keyed.insert name value object) [])

/-- The name that a field is shown by: its tag, if the type does not have it. -/
def fieldName (set : CodecSet) (typeName : String) (tag : Nat) : String :=
  match (set.get? typeName).bind (·.writer? tag) with
  | some plan => plan.field
  | none => toString tag

/-- The member that lists unknown records, if there are any. -/
def unknownMember (unknown : List Wire.UnknownField) : List (String × Json) :=
  if unknown.isEmpty then []
  else
    [("_unknown", .array (unknown.map fun field =>
      .object [("raw", .bytes field.raw), ("tag", .nat field.tag),
        ("wire_type", .text field.wireType.name)]))]

mutual

/-- The JSON form of a value. -/
def render (set : CodecSet) : Value → Json
  | .bool value => .boolean value
  | .int32 value => .integer value.toInt
  | .int64 value => .integer value.toInt
  | .uint32 value => .nat value.toNat
  | .uint64 value => .nat value.toNat
  | .float value => .double value.widen
  | .double value => .double value
  | .string value => .text value
  | .bytes value => .bytes value
  | .enum number => .integer number.toInt
  | .message ⟨typeName, fields, unknown⟩ =>
    sortedObject (renderFields set typeName fields ++ unknownMember unknown)
  | .list elements => .array (renderAll set elements)
  | .map entries => sortedObject (renderEntries set entries)

/-- The members of fields. -/
def renderFields (set : CodecSet) (typeName : String) : List (Nat × Value) → List (String × Json)
  | [] => []
  | (tag, value) :: rest =>
    (set.fieldName typeName tag, render set value) :: renderFields set typeName rest

/-- The JSON forms of elements. -/
def renderAll (set : CodecSet) : List Value → List Json
  | [] => []
  | value :: rest => render set value :: renderAll set rest

/-- The members of entries. -/
def renderEntries (set : CodecSet) : List (Value × Value) → List (String × Json)
  | [] => []
  | (key, value) :: rest =>
    (keyText (render set key), render set value) :: renderEntries set rest

end

/-- The JSON form of a message. -/
def renderMessage (set : CodecSet) (message : Message) : Json :=
  render set (.message message)

/-- Read a message of a type and show it as JSON over several lines. -/
def decodeToJson (set : CodecSet) (name : String) (bytes : List UInt8) :
    Except CodecError String :=
  (set.decode name bytes).map fun message => (set.renderMessage message).pretty

end Protobuf.CodecSet
