import Protobuf.Number.Bounds
import Protobuf.Schema.Basic
import Protobuf.Value.Basic
import Protobuf.Wire.Run
import Protobuf.Wire.Writer

/-! # Scalars on the wire

How a single value that is not a message is laid out. Numbers of every kind are words of some
layout; texts and bytes are payloads.

## Main definitions

* `Numeric` has the kinds of numbers, truth values and enum values among them. `ofWord` gives
  every word a meaning, `toWord?` the word of a value of the kind.
* `Scalar` adds texts and bytes. -/

namespace Protobuf

open Number Wire

/-- A kind of values that are words on the wire. -/
inductive Numeric
  | int32
  | int64
  | uint32
  | uint64
  | sint32
  | sint64
  | fixed32
  | fixed64
  | sfixed32
  | sfixed64
  | bool
  | float
  | double
  | enum
deriving DecidableEq, Repr

namespace Numeric

/-- The word for a kind. -/
def name : Numeric → String
  | .int32 => "int32"
  | .int64 => "int64"
  | .uint32 => "uint32"
  | .uint64 => "uint64"
  | .sint32 => "sint32"
  | .sint64 => "sint64"
  | .fixed32 => "fixed32"
  | .fixed64 => "fixed64"
  | .sfixed32 => "sfixed32"
  | .sfixed64 => "sfixed64"
  | .bool => "bool"
  | .float => "float"
  | .double => "double"
  | .enum => "enum"

/-- Every kind. -/
def all : List Numeric :=
  [.int32, .int64, .uint32, .uint64, .sint32, .sint64, .fixed32, .fixed64, .sfixed32, .sfixed64,
    .bool, .float, .double, .enum]

/-- The layout of the words of a kind. -/
def layout : Numeric → Word
  | .int32 | .int64 | .uint32 | .uint64 | .sint32 | .sint64 | .bool | .enum => .varint
  | .fixed64 | .sfixed64 | .double => .fixed64
  | .fixed32 | .sfixed32 | .float => .fixed32

/-- The value that a word stands for. Kinds of 32 bits keep the low 32 bits; any word but zero is
true. -/
def ofWord (word : Nat) : Numeric → Value
  | .int32 => .int32 word.toUInt32.toInt32
  | .int64 => .int64 word.toUInt64.toInt64
  | .uint32 => .uint32 word.toUInt32
  | .uint64 => .uint64 word.toUInt64
  | .sint32 => .int32 (.ofInt (Zigzag.decode (word % UInt32.size)))
  | .sint64 => .int64 (.ofInt (Zigzag.decode word))
  | .fixed32 => .uint32 word.toUInt32
  | .fixed64 => .uint64 word.toUInt64
  | .sfixed32 => .int32 word.toUInt32.toInt32
  | .sfixed64 => .int64 word.toUInt64.toInt64
  | .bool => .bool (word != 0)
  | .float => .float ⟨word.toUInt32⟩
  | .double => .double ⟨word.toUInt64⟩
  | .enum => .enum word.toUInt32.toInt32

/-- The word of a value; none if the value is of another kind. A negative number of a varint kind
takes 64 bits, whatever its width. -/
def toWord? : Numeric → Value → Option Nat
  | .int32, .int32 value => some (Write.twosComplement value.toInt)
  | .int64, .int64 value => some value.toUInt64.toNat
  | .uint32, .uint32 value => some value.toNat
  | .uint64, .uint64 value => some value.toNat
  | .sint32, .int32 value => some (Zigzag.encode value.toInt)
  | .sint64, .int64 value => some (Zigzag.encode value.toInt)
  | .fixed32, .uint32 value => some value.toNat
  | .fixed64, .uint64 value => some value.toNat
  | .sfixed32, .int32 value => some value.toUInt32.toNat
  | .sfixed64, .int64 value => some value.toUInt64.toNat
  | .bool, .bool value => some value.toNat
  | .float, .float value => some value.bits.toNat
  | .double, .double value => some value.bits.toNat
  | .enum, .enum value => some (Write.twosComplement value.toInt)
  | _, _ => none

/-- The zero of a kind. -/
def zero (kind : Numeric) : Value :=
  kind.ofWord 0

/-- The bytes of a value of a kind. -/
def write? (kind : Numeric) (value : Value) : Option (List UInt8) :=
  (kind.toWord? value).map (Write.word kind.layout)

/-- A whole number as a value of a kind; none if it is out of range. -/
def ofInt? (value : Int) : Numeric → Option Value
  | .int32 | .sint32 | .sfixed32 =>
    if Bounds.signed32.holds value then some (.int32 (.ofInt value)) else none
  | .int64 | .sint64 | .sfixed64 =>
    if Bounds.signed64.holds value then some (.int64 (.ofInt value)) else none
  | .uint32 | .fixed32 =>
    if Bounds.unsigned32.holds value then some (.uint32 value.toNat.toUInt32) else none
  | .uint64 | .fixed64 =>
    if Bounds.unsigned64.holds value then some (.uint64 value.toNat.toUInt64) else none
  | .float => some (.float (.ofInt value))
  | .double => some (.double (.ofInt value))
  | .enum => if Bounds.signed32.holds value then some (.enum (.ofInt value)) else none
  | .bool => none

end Numeric

/-- A kind of values that are not messages. -/
inductive Scalar
  | numeric (kind : Numeric)
  | string
  | bytes
deriving DecidableEq, Repr

namespace Scalar

/-- The kind of a built-in type. -/
def ofBuiltin : Builtin → Scalar
  | .int32 => .numeric .int32
  | .int64 => .numeric .int64
  | .uint32 => .numeric .uint32
  | .uint64 => .numeric .uint64
  | .sint32 => .numeric .sint32
  | .sint64 => .numeric .sint64
  | .fixed32 => .numeric .fixed32
  | .fixed64 => .numeric .fixed64
  | .sfixed32 => .numeric .sfixed32
  | .sfixed64 => .numeric .sfixed64
  | .bool => .numeric .bool
  | .float => .numeric .float
  | .double => .numeric .double
  | .string => .string
  | .bytes => .bytes

/-- The kind of a type that is neither a message nor a map. -/
def ofType? : FieldType → Option Scalar
  | .builtin type => some (ofBuiltin type)
  | .enum _ => some (.numeric .enum)
  | .message _ => none
  | .map _ _ => none

/-- The word for a kind. -/
def name : Scalar → String
  | .numeric kind => kind.name
  | .string => "string"
  | .bytes => "bytes"

/-- The wire type of a single value. -/
def wireType : Scalar → WireType
  | .numeric kind => kind.layout.wireType
  | .string => .lengthDelimited
  | .bytes => .lengthDelimited

/-- Whether several values can share a record. -/
def isPackable : Scalar → Bool
  | .numeric _ => true
  | .string => false
  | .bytes => false

/-- The zero of a kind. -/
def zero : Scalar → Value
  | .numeric kind => kind.zero
  | .string => .string ""
  | .bytes => .bytes []

/-- The bytes of a value of a kind; none if the value is of another kind. -/
def write? : Scalar → Value → Option (List UInt8)
  | .numeric kind, value => kind.write? value
  | .string, .string value => some (Write.text value)
  | .bytes, .bytes value => some (Write.payload value)
  | _, _ => none

/-- The value of a record; none if the record is of another wire type. -/
def read? : Scalar → RawValue → Option (Except Error Value)
  | .numeric kind, raw => (raw.word? kind.layout).map fun word => .ok (kind.ofWord word)
  | .string, raw => raw.payload?.map fun slice =>
    match Text.Utf8.decode? slice.bytes with
    | some text => .ok (.string text)
    | none => .error (.invalidUtf8 slice.offset)
  | .bytes, raw => raw.payload?.map fun slice => .ok (.bytes slice.bytes)

/-- The values of a record of a repeated field: a single one, or a run of packed ones. -/
def readAll? (scalar : Scalar) (raw : RawValue) : Option (Except Error (List Value)) :=
  match scalar, raw with
  | .numeric kind, .payload slice =>
    some ((readRun kind.layout (.ofSlice slice)).map (·.map kind.ofWord))
  | _, _ => (scalar.read? raw).map (·.map ([·]))

/-- A default as a value of a kind; none if it does not fit. The names of enum values are looked up
among `values`. -/
def ofDefault? (values : List EnumValue) : Scalar → DefaultValue → Option Value
  | .numeric .bool, .bool value => some (.bool value)
  | .numeric .float, .float value => some (.float value.narrow)
  | .numeric .double, .float value => some (.double value)
  | .numeric .enum, .text name => (values.find? (·.name = name)).map fun value => .enum value.number
  | .numeric kind, .integer value => kind.ofInt? value
  | .string, .text value => some (.string value)
  | .bytes, .text value => some (.bytes (Text.Utf8.encode value))
  | _, _ => none

end Scalar

end Protobuf
