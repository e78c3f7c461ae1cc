import Protobuf.Codec.Scalar
import Protobuf.Emission.Names
import Protobuf.Emission.Source
import Protobuf.Number.Layout

/-! # Types, literals and expressions of the emitted text

The small parts that statements are made of: the type of a field, the literal of a default, and how
a single value is tested for zero, written and read. -/

namespace Protobuf.Emission

open Number Text Wire

/-- The type of numbers of a kind. -/
def numericType : Numeric → String
  | .int32 | .sint32 | .sfixed32 | .enum => "i32"
  | .int64 | .sint64 | .sfixed64 => "i64"
  | .uint32 | .fixed32 => "u32"
  | .uint64 | .fixed64 => "u64"
  | .bool => "bool"
  | .float => "f32"
  | .double => "f64"

/-- The type of values of a kind. -/
def scalarType : Scalar → String
  | .numeric kind => numericType kind
  | .string => "String"
  | .bytes => "Vec<u8>"

/-- The type of one value of a field. -/
def elementType (names : Names) : FieldType → String
  | .message name => names.typeName name
  | .map key value => "(" ++ elementType names key ++ ", " ++ elementType names value ++ ")"
  | .enum _ => numericType .enum
  | .builtin type => scalarType (.ofBuiltin type)

/-- The type of a field. -/
def memberType (names : Names) (field : Field) : String :=
  let element := elementType names field.type
  if field.isRepeated then "Vec<" ++ element ++ ">"
  else if field.isMessage then "Option<Box<" ++ element ++ ">>"
  else if field.cardinality = .optional then "Option<" ++ element ++ ">"
  else element

/-- The path of a wire type. -/
def wireTypePath : WireType → String
  | .varint => "WireType::Varint"
  | .fixed64 => "WireType::Fixed64"
  | .lengthDelimited => "WireType::LengthDelimited"
  | .fixed32 => "WireType::Fixed32"

/-- Where a value is found: under a name, or behind a reference with a name. -/
inductive Place
  | held (name : String)
  | behind (reference : String)

namespace Place

/-- The value. -/
def value : Place → String
  | .held name => name
  | .behind reference => "*" ++ reference

/-- A reference to the value. -/
def borrow : Place → String
  | .held name => "&" ++ name
  | .behind reference => reference

/-- What a method is called on. -/
def receiver : Place → String
  | .held name => name
  | .behind reference => reference

end Place

/-- The condition that a value is not zero. -/
def isNonzero (place : Place) : Scalar → String
  | .numeric .bool => place.value
  | .numeric .float | .numeric .double => place.receiver ++ ".to_bits() != 0"
  | .numeric _ => place.value ++ " != 0"
  | .string | .bytes => "!" ++ place.receiver ++ ".is_empty()"

/-- The call that writes a number. -/
def writeNumber (value : String) : Numeric → String
  | .int32 | .enum => "write_int32(" ++ value ++ ")"
  | .int64 => "write_int64(" ++ value ++ ")"
  | .uint32 => "write_varint(u64::from(" ++ value ++ "))"
  | .uint64 => "write_varint(" ++ value ++ ")"
  | .sint32 => "write_zigzag32(" ++ value ++ ")"
  | .sint64 => "write_zigzag64(" ++ value ++ ")"
  | .fixed32 => "write_fixed32(" ++ value ++ ")"
  | .fixed64 => "write_fixed64(" ++ value ++ ")"
  | .sfixed32 => "write_fixed32(" ++ value ++ " as u32)"
  | .sfixed64 => "write_fixed64(" ++ value ++ " as u64)"
  | .bool => "write_bool(" ++ value ++ ")"
  | .float => "write_float(" ++ value ++ ")"
  | .double => "write_double(" ++ value ++ ")"

/-- The statement that writes a value without its key. -/
def writeScalar (buffer : String) (scalar : Scalar) (place : Place) : Source :=
  let call :=
    match scalar with
    | .numeric kind => writeNumber place.value kind
    | .string => "write_string(" ++ place.borrow ++ ")"
    | .bytes => "write_length_delimited(" ++ place.borrow ++ ")"
  .line (buffer ++ "." ++ call ++ ";")

/-- What is called on a buffer to read a number, and made of the result. -/
def readNumber : Numeric → String
  | .int32 | .enum => "read_varint32()? as i32"
  | .int64 => "read_varint()? as i64"
  | .uint32 => "read_varint32()?"
  | .uint64 => "read_varint()?"
  | .sint32 => "read_zigzag32()?"
  | .sint64 => "read_zigzag64()?"
  | .fixed32 => "read_fixed32()?"
  | .fixed64 => "read_fixed64()?"
  | .sfixed32 => "read_fixed32()? as i32"
  | .sfixed64 => "read_fixed64()? as i64"
  | .bool => "read_bool()?"
  | .float => "read_float()?"
  | .double => "read_double()?"

/-- The expression that reads a value. -/
def readScalar (buffer : String) : Scalar → String
  | .numeric kind => buffer ++ "." ++ readNumber kind
  | .string => buffer ++ ".read_string(MAX_LENGTH)?.to_owned()"
  | .bytes => buffer ++ ".read_length_delimited(MAX_LENGTH)?.to_vec()"

/-- The literal of a binary number of a type. -/
def doubleLiteral (type : String) (value : Binary64) : String :=
  match value.read with
  | .nan => type ++ "::NAN"
  | .infinite false => type ++ "::INFINITY"
  | .infinite true => type ++ "::NEG_INFINITY"
  | .finite .. => Layout.source.text64 value

/-- The literal of a default. -/
def literal? : Value → Option String
  | .bool value => some (if value then "true" else "false")
  | .int32 value => some (toString value.toInt)
  | .int64 value => some (toString value.toInt)
  | .uint32 value => some (toString value.toNat)
  | .uint64 value => some (toString value.toNat)
  | .float value => some (doubleLiteral "f32" value.widen)
  | .double value => some (doubleLiteral "f64" value)
  | .string value => some (Quote.literal value)
  | .bytes value =>
    some ("&[" ++ ", ".intercalate (value.map fun b => toString b.toNat) ++ "]")
  | .enum number => some (toString number.toInt)
  | _ => none

end Protobuf.Emission
