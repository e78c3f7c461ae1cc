import Protobuf.Wire.Key

/-! # Types of fields

The types a field can be declared with: the built-in ones, references to enums and messages by
full name, and maps. -/

namespace Protobuf

open Wire

/-- The built-in types. Those that start with `s` or end in a width differ from the plain ones only
in how they are laid out on the wire. -/
inductive Builtin
  | int32
  | int64
  | uint32
  | uint64
  | sint32
  | sint64
  | fixed32
  | fixed64
  | sfixed32
  | sfixed64
  | bool
  | float
  | double
  | string
  | bytes
deriving DecidableEq, Repr

namespace Builtin

/-- The word for a type in declarations. -/
def token : Builtin → String
  | .int32 => "int32"
  | .int64 => "int64"
  | .uint32 => "uint32"
  | .uint64 => "uint64"
  | .sint32 => "sint32"
  | .sint64 => "sint64"
  | .fixed32 => "fixed32"
  | .fixed64 => "fixed64"
  | .sfixed32 => "sfixed32"
  | .sfixed64 => "sfixed64"
  | .bool => "bool"
  | .float => "float"
  | .double => "double"
  | .string => "string"
  | .bytes => "bytes"

/-- Every built-in type. -/
def all : List Builtin :=
  [.int32, .int64, .uint32, .uint64, .sint32, .sint64, .fixed32, .fixed64, .sfixed32, .sfixed64,
    .bool, .float, .double, .string, .bytes]

/-- The type with a token. -/
def ofToken? (token : String) : Option Builtin :=
  all.find? (·.token = token)

/-- The wire type of a single value. -/
def wireType : Builtin → WireType
  | .int32 | .int64 | .uint32 | .uint64 | .sint32 | .sint64 | .bool => .varint
  | .fixed64 | .sfixed64 | .double => .fixed64
  | .fixed32 | .sfixed32 | .float => .fixed32
  | .string | .bytes => .lengthDelimited

/-- Whether values of the type can be keys of a map. -/
def isValidMapKey : Builtin → Bool
  | .float | .double | .bytes => false
  | _ => true

end Builtin

/-- The type of a field. Enums and messages are referred to by full name. -/
inductive FieldType
  | builtin (type : Builtin)
  | enum (name : String)
  | message (name : String)
  | map (key value : FieldType)
deriving DecidableEq, Repr

namespace FieldType

/-- The words for a type. -/
def text : FieldType → String
  | .builtin type => type.token
  | .enum name => name
  | .message name => name
  | .map key value => "map<" ++ key.text ++ ", " ++ value.text ++ ">"

/-- The wire type of a single value. -/
def wireType : FieldType → WireType
  | .builtin type => type.wireType
  | .enum _ => .varint
  | .message _ => .lengthDelimited
  | .map _ _ => .lengthDelimited

/-- Whether several values can share a record: a value that carries its own length cannot. -/
def isPackable (type : FieldType) : Bool :=
  type.wireType != .lengthDelimited

/-- Whether values of the type can be keys of a map. -/
def isValidMapKey : FieldType → Bool
  | .builtin type => type.isValidMapKey
  | _ => false

/-- Whether the type is a map. -/
def isMap : FieldType → Bool
  | .map _ _ => true
  | _ => false

/-- Whether the type is built in. -/
def isBuiltin : FieldType → Bool
  | .builtin _ => true
  | _ => false

end FieldType

end Protobuf
