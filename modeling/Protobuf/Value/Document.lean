import Protobuf.Json.Document
import Protobuf.Value.Basic

/-! # Values as JSON

The JSON form of values while no schema is at hand: a message is an object of its fields by tag,
and a map is an array of pairs. -/

namespace Protobuf.Value

mutual

/-- The JSON form of a value. -/
def toJson : Value → Json
  | .bool value => .boolean value
  | .int32 value => .integer value.toInt
  | .int64 value => .integer value.toInt
  | .uint32 value => .nat value.toNat
  | .uint64 value => .nat value.toNat
  | .float value => .float value
  | .double value => .double value
  | .string value => .text value
  | .bytes value => .bytes value
  | .enum number => .integer number.toInt
  | .message ⟨_, fields, _⟩ => .object (fieldsToJson fields)
  | .list elements => .array (allToJson elements)
  | .map entries => .array (entriesToJson entries)

/-- The JSON forms of fields. -/
def fieldsToJson : List (Nat × Value) → List (String × Json)
  | [] => []
  | (tag, value) :: rest => (toString tag, value.toJson) :: fieldsToJson rest

/-- The JSON forms of elements. -/
def allToJson : List Value → List Json
  | [] => []
  | value :: rest => value.toJson :: allToJson rest

/-- The JSON forms of entries. -/
def entriesToJson : List (Value × Value) → List Json
  | [] => []
  | (key, value) :: rest => .array [key.toJson, value.toJson] :: entriesToJson rest

end

end Protobuf.Value
