import Protobuf.Name
import Protobuf.Number.Binary
import Protobuf.Schema.FieldType
import Protobuf.Table

/-! # Schemas

Messages with their fields, enums with their values, and the schema that holds the outermost of
them. A type nested in a message belongs to that message. All names of types are full names.

A map field stands for a nested message of its own, the entry message, which holds one key and one
value. -/

namespace Protobuf

open Number

/-- How many values a field has, and whether an absent value differs from zero. -/
inductive Cardinality
  /-- One value; zero is not written. -/
  | singular
  /-- One value, which may be absent. -/
  | optional
  /-- Any number of values, a record for each. -/
  | repeated
  /-- Any number of values in one record. -/
  | packed
deriving DecidableEq, Repr

namespace Cardinality

/-- The word for a cardinality. -/
def name : Cardinality → String
  | .singular => "singular"
  | .optional => "optional"
  | .repeated => "repeated"
  | .packed => "packed"

/-- Every cardinality. -/
def all : List Cardinality := [.singular, .optional, .repeated, .packed]

/-- Whether there may be several values. -/
def isRepeated : Cardinality → Bool
  | .repeated | .packed => true
  | .singular | .optional => false

end Cardinality

/-- A literal that a field stands for when it is absent. -/
inductive DefaultValue
  | bool (value : Bool)
  | integer (value : Int)
  | float (value : Binary64)
  /-- A text, or the name of an enum value. -/
  | text (value : String)
deriving DecidableEq, Repr

/-- A field of a message. -/
structure Field where
  name : String
  tag : Nat
  type : FieldType
  cardinality : Cardinality := .singular
  /-- The group of fields of which no more than one is set. -/
  oneof : Option String := none
  default : Option DefaultValue := none
  deprecated : Bool := false
deriving DecidableEq, Repr

namespace Field

/-- Whether the field is a map. -/
def isMap (field : Field) : Bool :=
  field.type.isMap

/-- Whether the field has any number of values. -/
def isRepeated (field : Field) : Bool :=
  field.cardinality.isRepeated || field.isMap

/-- Whether the field refers to a message. -/
def isMessage (field : Field) : Bool :=
  match field.type with
  | .message _ => true
  | _ => false

/-- Whether an absent value can be told from zero. -/
def hasExplicitPresence (field : Field) : Bool :=
  !field.isRepeated &&
    (field.cardinality = .optional || field.oneof.isSome || field.isMessage)

end Field

/-- A range of numbers, both ends included. -/
structure NumberRange where
  first : Int
  last : Int
deriving DecidableEq, Repr

/-- Names and numbers that must not be used. -/
structure Reserved where
  names : KeySet String := .empty
  ranges : List NumberRange := []
deriving DecidableEq, Repr

namespace Reserved

/-- Whether a name is reserved. -/
def hasName (reserved : Reserved) (name : String) : Bool :=
  reserved.names.contains name

/-- Whether a number is reserved. -/
def hasNumber (reserved : Reserved) (number : Int) : Bool :=
  reserved.ranges.any fun range => range.first ≤ number && number ≤ range.last

/-- Whether nothing is reserved. -/
def isEmpty (reserved : Reserved) : Bool :=
  reserved.names.entries.isEmpty && reserved.ranges.isEmpty

/-- Reserve names, single numbers, and ranges. -/
def of (names : List String) (numbers : List Int) (ranges : List NumberRange) : Reserved :=
  ⟨KeySet.addAll .empty names, numbers.map (fun number => ⟨number, number⟩) ++ ranges⟩

end Reserved

/-- A named number of an enum. -/
structure EnumValue where
  name : String
  number : Int32
deriving DecidableEq, Repr

/-- An enum. -/
structure EnumType where
  name : String
  values : List EnumValue := []
  /-- Whether several names may share a number. -/
  allowAlias : Bool := true
  reserved : Reserved := {}
deriving DecidableEq, Repr

namespace EnumType

/-- The last part of the name. -/
def simpleName (type : EnumType) : String :=
  Name.simple type.name

/-- The first value with a name. -/
def valueNamed? (type : EnumType) (name : String) : Option EnumValue :=
  type.values.find? (·.name = name)

end EnumType

/-- The groups of a message of which no more than one member is set, with the tags of their
members. -/
abbrev OneofTable := Table String (KeySet Nat)

namespace OneofTable

/-- The groups with further tags in one of them. -/
def join (groups : OneofTable) (group : String) (tags : List Nat) : OneofTable :=
  groups.insert group (((groups.get? group).getD .empty).addAll tags)

/-- The groups with the tag of a field in the group it names. -/
def addField (groups : OneofTable) (field : Field) : OneofTable :=
  match field.oneof with
  | some group => groups.join group [field.tag]
  | none => groups

/-- The groups that fields name, besides groups that are there without members. -/
def ofFields (declared : List String) (fields : List Field) : OneofTable :=
  fields.foldl addField (declared.foldl (fun groups group => groups.join group []) .empty)

end OneofTable

/-- A message. -/
structure MessageType where
  name : String
  fields : List Field := []
  nestedEnums : List EnumType := []
  nestedMessages : List MessageType := []
  oneofs : OneofTable := .empty
  reserved : Reserved := {}

namespace MessageType

mutual

/-- Whether two messages are the same. -/
def decEq : (type other : MessageType) → Decidable (type = other)
  | ⟨name, fields, enums, nested, oneofs, reserved⟩,
    ⟨name', fields', enums', nested', oneofs', reserved'⟩ =>
    have := decEqAll nested nested'
    decidable_of_iff (name = name' ∧ fields = fields' ∧ enums = enums' ∧ nested = nested' ∧
      oneofs = oneofs' ∧ reserved = reserved') (by simp)

/-- Whether messages are the same one by one. -/
def decEqAll : (types others : List MessageType) → Decidable (types = others)
  | [], [] => .isTrue rfl
  | [], _ :: _ => .isFalse nofun
  | _ :: _, [] => .isFalse nofun
  | type :: rest, other :: others =>
    have := type.decEq other
    have := decEqAll rest others
    decidable_of_iff (type = other ∧ rest = others) (by simp)

end

instance : DecidableEq MessageType := decEq

/-- The last part of the name. -/
def simpleName (type : MessageType) : String :=
  Name.simple type.name

/-- The first field with a tag. -/
def fieldTagged? (type : MessageType) (tag : Nat) : Option Field :=
  type.fields.find? (·.tag = tag)

/-- The first field with a name. -/
def fieldNamed? (type : MessageType) (name : String) : Option Field :=
  type.fields.find? (·.name = name)

mutual

/-- The message and every message nested in it, outer ones first. -/
def withNested : MessageType → List MessageType
  | ⟨name, fields, enums, nested, oneofs, reserved⟩ =>
    ⟨name, fields, enums, nested, oneofs, reserved⟩ :: allNested nested

/-- Messages and every message nested in them. -/
def allNested : List MessageType → List MessageType
  | [] => []
  | type :: rest => type.withNested ++ allNested rest

end

mutual

/-- Every enum in a message, those of nested messages first. -/
def enumsWithin : MessageType → List EnumType
  | ⟨_, _, enums, nested, _, _⟩ => allEnumsWithin nested ++ enums

/-- Every enum in messages. -/
def allEnumsWithin : List MessageType → List EnumType
  | [] => []
  | type :: rest => type.enumsWithin ++ allEnumsWithin rest

end

end MessageType

/-- A schema: the outermost types of a package. -/
structure Schema where
  package : Option String := none
  messages : List MessageType := []
  enums : List EnumType := []
deriving DecidableEq

namespace Schema

/-- The scope of the outermost types; the root without a package. -/
def scope (schema : Schema) : String :=
  schema.package.getD ""

/-- Every message, outer ones first. -/
def allMessages (schema : Schema) : List MessageType :=
  MessageType.allNested schema.messages

/-- Every enum, those in messages first. -/
def allEnums (schema : Schema) : List EnumType :=
  MessageType.allEnumsWithin schema.messages ++ schema.enums

end Schema

/-! ## Entry messages of maps -/

/-- The simple name of the entry message of a map field. -/
def entryName (fieldName : String) : String :=
  Name.pascal fieldName ++ "Entry"

/-- The message that holds one entry of a map. -/
def entryMessage (name : String) (key value : FieldType) : MessageType :=
  { name := name, fields := [⟨"key", 1, key, .singular, none, none, false⟩,
      ⟨"value", 2, value, .singular, none, none, false⟩] }

/-- The entry messages of a field of a message: its own, then those of maps inside it. -/
def FieldType.entryMessages (scope fieldName : String) : FieldType → List MessageType
  | .map key value =>
    let name := Name.join scope (entryName fieldName)
    entryMessage name key value ::
      (key.entryMessages name "key" ++ value.entryMessages name "value")
  | _ => []

/-- The entry messages of the map fields of a message. -/
def MessageType.entryMessages (type : MessageType) : List MessageType :=
  type.fields.flatMap fun field => field.type.entryMessages type.name field.name

end Protobuf
