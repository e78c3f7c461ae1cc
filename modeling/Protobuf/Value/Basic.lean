import Protobuf.Keyed
import Protobuf.Number.Binary
import Protobuf.Text.Utf8
import Protobuf.Wire.Unknown

/-! # Values

What fields hold while no schema is at hand. A message has its fields by ascending tag and the
records it does not know in the order they were read. An enum value is its number, so that numbers
without a name are kept.

Equality of values is that of numbers: what is not a number differs from itself, and zeros are
equal whatever their sign. -/

namespace Protobuf

open Number Text

/-- A message whose fields hold values of a kind. -/
structure MessageOf (α : Type) where
  typeName : String
  /-- The values of the fields that are set, by ascending tag. -/
  fields : List (Nat × α)
  unknown : List Wire.UnknownField

/-- What a field holds. -/
inductive Value
  | bool (value : Bool)
  | int32 (value : Int32)
  | int64 (value : Int64)
  | uint32 (value : UInt32)
  | uint64 (value : UInt64)
  | float (value : Binary32)
  | double (value : Binary64)
  | string (value : String)
  | bytes (value : List UInt8)
  | enum (number : Int32)
  | message (value : MessageOf Value)
  /-- The elements of a repeated field. -/
  | list (elements : List Value)
  /-- The entries of a map, in the order their keys came. -/
  | map (entries : List (Value × Value))

/-- A message with its fields. -/
abbrev Message := MessageOf Value

instance : Inhabited Value := ⟨.bool false⟩

namespace MessageOf

variable {α : Type}

/-- The message of a type with nothing set. -/
def new (typeName : String) : MessageOf α :=
  ⟨typeName, [], []⟩

/-- The value of a field, if it is set. -/
def get? (message : MessageOf α) (tag : Nat) : Option α :=
  Keyed.get? tag message.fields

/-- The message with a field set. -/
def set (message : MessageOf α) (tag : Nat) (value : α) : MessageOf α :=
  { message with fields := Keyed.insert tag value message.fields }

/-- The message with a field not set. -/
def remove (message : MessageOf α) (tag : Nat) : MessageOf α :=
  { message with fields := Keyed.erase tag message.fields }

/-- The message with further unknown records. -/
def addUnknown (message : MessageOf α) (unknown : List Wire.UnknownField) : MessageOf α :=
  { message with unknown := message.unknown ++ unknown }

/-- Whether no field is set and no record unknown. -/
def isEmpty (message : MessageOf α) : Bool :=
  message.fields.isEmpty && message.unknown.isEmpty

end MessageOf

namespace Value

mutual

/-- Whether two values are equal. -/
def same : Value → Value → Bool
  | .bool a, .bool b => a == b
  | .int32 a, .int32 b => a == b
  | .int64 a, .int64 b => a == b
  | .uint32 a, .uint32 b => a == b
  | .uint64 a, .uint64 b => a == b
  | .float a, .float b => a.same b
  | .double a, .double b => a.same b
  | .string a, .string b => a == b
  | .bytes a, .bytes b => a == b
  | .enum a, .enum b => a == b
  | .message ⟨type, fields, unknown⟩, .message other =>
    type == other.typeName && sameFields fields other.fields && unknown == other.unknown
  | .list elements, .list others => sameAll elements others
  | .map entries, .map others => sameEntries entries others
  | _, _ => false

/-- Whether the fields of two messages are equal. -/
def sameFields : List (Nat × Value) → List (Nat × Value) → Bool
  | [], [] => true
  | (tag, value) :: rest, (tag', value') :: rest' =>
    tag == tag' && value.same value' && sameFields rest rest'
  | _, _ => false

/-- Whether the elements of two lists are equal. -/
def sameAll : List Value → List Value → Bool
  | [], [] => true
  | value :: rest, value' :: rest' => value.same value' && sameAll rest rest'
  | _, _ => false

/-- Whether the entries of two maps are equal, in this order. -/
def sameEntries : List (Value × Value) → List (Value × Value) → Bool
  | [], [] => true
  | (key, value) :: rest, (key', value') :: rest' =>
    key.same key' && value.same value' && sameEntries rest rest'
  | _, _ => false

end

/-- Whether a value is the zero of its kind. Zero with a sign is not. -/
def isZero : Value → Bool
  | .bool value => !value
  | .int32 value => value == 0
  | .int64 value => value == 0
  | .uint32 value => value == 0
  | .uint64 value => value == 0
  | .float value => value == Binary32.zero
  | .double value => value == Binary64.zero
  | .string value => value == ""
  | .bytes value => value.isEmpty
  | .enum number => number == 0
  | .message _ => false
  | .list elements => elements.isEmpty
  | .map entries => entries.isEmpty

/-- The entries of a map with the value of a key set. A key that is there keeps its place. -/
def setEntry (key value : Value) : List (Value × Value) → List (Value × Value)
  | [] => [(key, value)]
  | (k, v) :: rest => if k.same key then (k, value) :: rest else (k, v) :: setEntry key value rest

/-- The value of a key of a map. -/
def entry? (key : Value) (entries : List (Value × Value)) : Option Value :=
  (entries.find? (·.1.same key)).map (·.2)

/-- A list with an element more. Other values stay as they are. -/
def push (value element : Value) : Value :=
  match value with
  | .list elements => .list (elements ++ [element])
  | other => other

/-- A map with the value of a key set. Other values stay as they are. -/
def insert (value key held : Value) : Value :=
  match value with
  | .map entries => .map (setEntry key held entries)
  | other => other

/-! ## What a value is if it is of a kind -/

/-- The truth value, or false. -/
def toBool : Value → Bool
  | .bool value => value
  | _ => false

/-- The signed number, or zero. -/
def toInt : Value → Int
  | .int32 value => value.toInt
  | .int64 value => value.toInt
  | .enum number => number.toInt
  | _ => 0

/-- The unsigned number, or zero. -/
def toNat : Value → Nat
  | .uint32 value => value.toNat
  | .uint64 value => value.toNat
  | _ => 0

/-- The binary number in 64 bits, or zero. -/
def toDouble : Value → Binary64
  | .float value => value.widen
  | .double value => value
  | _ => .zero

/-- The text, or the empty one. -/
def toText : Value → String
  | .string value => value
  | _ => ""

/-- The bytes, those of a text included, or none. -/
def toBytes : Value → List UInt8
  | .bytes value => value
  | .string value => Utf8.encode value
  | _ => []

/-- The message, if it is one. -/
def toMessage? : Value → Option Message
  | .message value => some value
  | _ => none

/-- The elements of a list, or none. -/
def elements : Value → List Value
  | .list elements => elements
  | _ => []

/-- The entries of a map, or none. -/
def entries : Value → List (Value × Value)
  | .map entries => entries
  | _ => []

/-- The number of elements or entries. -/
def size : Value → Nat
  | .list elements => elements.length
  | .map entries => entries.length
  | _ => 0

end Value

/-- Whether two messages are equal. -/
def Message.same (left right : Message) : Bool :=
  (Value.message left).same (.message right)

end Protobuf
