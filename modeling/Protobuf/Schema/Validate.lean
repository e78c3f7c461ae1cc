import Protobuf.Number.Bounds
import Protobuf.Schema.Cycle
import Protobuf.Schema.Violation

/-! # Validation

Every violation of a schema, in a fixed order: a message's own before those of its map entries, its
enums and its nested messages, and circles of embeddings last. A schema is valid if there is none.

## Implementation notes

Each rule is a function that gives the violations of one thing, given what it has to be compared
with; nothing is remembered between rules. -/

namespace Protobuf

open Number Wire

/-- A violation, when a condition holds. -/
def Violation.when (broken : Bool) (violation : Violation) : List Violation :=
  if broken then [violation] else []

namespace Validate

/-- Run a rule on each item together with the items in front of it, the nearest first. -/
def withEarlier {α : Type} (rule : List α → α → List Violation) (earlier : List α) :
    List α → List Violation
  | [] => []
  | item :: rest => rule earlier item ++ withEarlier rule (item :: earlier) rest

/-- A name must be an identifier. -/
def identifier (scope name : String) : List Violation :=
  Violation.when (!Name.isIdentifier name) (.invalidName scope name)

/-- Names in a scope must be distinct. -/
def distinct (scope : String) (names : List String) : List Violation :=
  withEarlier
    (fun earlier name => Violation.when (earlier.contains name) (.duplicateNestedName scope name))
    [] names

/-- The bounds of a built-in type of whole numbers. -/
def bounds? : Builtin → Option Bounds
  | .int32 | .sint32 | .sfixed32 => some .signed32
  | .int64 | .sint64 | .sfixed64 => some .signed64
  | .uint32 | .fixed32 => some .unsigned32
  | .uint64 | .fixed64 => some .unsigned64
  | .bool | .float | .double | .string | .bytes => none

/-- Whether a default is a value of a built-in type. -/
def fitsBuiltin (type : Builtin) (default : DefaultValue) : Bool :=
  match bounds? type, default with
  | some bounds, .integer value => bounds.holds value
  | some _, _ => false
  | none, .bool _ => type = .bool
  | none, .integer _ => type = .float || type = .double
  | none, .float _ => type = .float || type = .double
  | none, .text _ => type = .string || type = .bytes

/-- Whether a default is a value of a type. A name fits an enum that is not known. -/
def fits (registry : Registry) (type : FieldType) (default : DefaultValue) : Bool :=
  match type, default with
  | .builtin type, _ => fitsBuiltin type default
  | .enum name, .text value => (registry.enum? name).all fun type => (type.valueNamed? value).isSome
  | .enum _, .integer value => Bounds.signed32.holds value
  | _, _ => false

/-- The rules for the tag and the name of a field. -/
def labels (reserved : Reserved) (message : String) (field : Field) : List Violation :=
  identifier message field.name ++
  Violation.when (field.tag < 1 || maxTag < field.tag)
    (.tagOutOfRange message field.name field.tag) ++
  Violation.when (isSetAside field.tag) (.tagSetAside message field.name field.tag) ++
  Violation.when (reserved.hasNumber field.tag) (.reservedTag message field.name field.tag) ++
  Violation.when (reserved.hasName field.name) (.reservedName message field.name)

/-- The rules for the type of a field. -/
def typed (registry : Registry) (message : String) (field : Field) : List Violation :=
  match field.type with
  | .map key value =>
    Violation.when (field.cardinality ≠ .singular) (.mapCardinality message field.name) ++
    Violation.when (!key.isValidMapKey) (.invalidMapKey message field.name key.text) ++
    Violation.when value.isMap (.invalidMapValue message field.name)
  | type =>
    Violation.when (!registry.resolves type) (.unresolvedType message field.name type.text)

/-- The rules for how many values a field has. -/
def counted (message : String) (field : Field) : List Violation :=
  Violation.when (field.cardinality = .packed && !field.type.isPackable)
    (.packedNotScalar message field.name field.type.text) ++
  Violation.when (field.oneof.isSome && (field.cardinality ≠ .singular || field.isMap))
    (.oneofMemberCardinality message field.name)

/-- The rules for the default of a field. -/
def defaulted (registry : Registry) (message : String) (field : Field) : List Violation :=
  match field.default with
  | none => []
  | some default =>
    if field.cardinality ≠ .optional then [.defaultRequiresPresence message field.name]
    else
      Violation.when (!fits registry field.type default)
        (.defaultTypeMismatch message field.name field.type.text)

/-- The rules for a field of a message, given the fields in front of it. -/
def field (registry : Registry) (reserved : Reserved) (message : String) (earlier : List Field)
    (field : Field) : List Violation :=
  (match earlier.find? (·.tag = field.tag) with
    | some first => [.duplicateTag message field.tag first.name field.name]
    | none => []) ++
  Violation.when (earlier.any (·.name = field.name)) (.duplicateFieldName message field.name) ++
  labels reserved message field ++ typed registry message field ++ counted message field ++
  defaulted registry message field

/-- The rules for a member of a group, given whether an earlier group has it too. -/
def member (type : MessageType) (group : String) (taken : Nat → Bool) (tag : Nat) :
    List Violation :=
  match type.fieldTagged? tag with
  | none => [.oneofUnknownMember type.name group tag]
  | some field =>
    Violation.when (field.oneof ≠ some group || taken tag) (.oneofConflict type.name field.name)

/-- The rules for the oneof groups of a message: each has members, and its members are the fields
that name it. -/
def oneofs (type : MessageType) : List Violation :=
  withEarlier
    (fun earlier (group, tags) =>
      Violation.when tags.entries.isEmpty (.emptyOneof type.name group) ++
      tags.keys.flatMap (member type group fun tag => earlier.any (·.2.contains tag)))
    [] type.oneofs.entries ++
  type.fields.flatMap fun field =>
    match field.oneof with
    | some group =>
      Violation.when (!(type.oneofs.get? group).any (·.contains field.tag))
        (.oneofConflict type.name field.name)
    | none => []

/-- The names declared inside a message, those of entry messages included. -/
def declaredNames (type : MessageType) : List String :=
  type.nestedMessages.map (·.simpleName) ++ type.nestedEnums.map (·.simpleName) ++
  (type.fields.filter (·.isMap)).map fun field => entryName field.name

/-- The rules for a message, those for the types inside it left out. -/
def own (registry : Registry) (type : MessageType) : List Violation :=
  identifier type.name type.simpleName ++
  withEarlier (field registry type.reserved type.name) [] type.fields ++
  oneofs type ++
  distinct type.name (declaredNames type)

/-- The rules for the first value of an enum. -/
def firstValue (type : EnumType) : List Violation :=
  match type.values with
  | [] => [.emptyEnum type.name]
  | first :: _ =>
    Violation.when (first.number ≠ 0)
      (.enumFirstValueNotZero type.name first.name first.number.toInt)

/-- The rules for a value of an enum, given the values in front of it. The number of a value is
compared with the first value that has it. -/
def enumValue (type : EnumType) (earlier : List EnumValue) (value : EnumValue) : List Violation :=
  identifier type.name value.name ++
  Violation.when (earlier.any (·.name = value.name)) (.duplicateEnumName type.name value.name) ++
  (match earlier.reverse.find? (·.number = value.number) with
    | some first =>
      Violation.when (!type.allowAlias)
        (.duplicateEnumNumber type.name value.number.toInt first.name value.name)
    | none => []) ++
  Violation.when
    (type.reserved.hasName value.name || type.reserved.hasNumber value.number.toInt)
    (.reservedEnumValue type.name value.name)

/-- The rules for an enum. -/
def enum (type : EnumType) : List Violation :=
  identifier type.name type.simpleName ++ firstValue type ++
  withEarlier (enumValue type) [] type.values

mutual

/-- The rules for a message and everything inside it. -/
def message (registry : Registry) : MessageType → List Violation
  | ⟨name, fields, enums, nested, groups, reserved⟩ =>
    let type : MessageType := ⟨name, fields, enums, nested, groups, reserved⟩
    own registry type ++ type.entryMessages.flatMap (own registry) ++ enums.flatMap enum ++
    messages registry nested

/-- The rules for messages. -/
def messages (registry : Registry) : List MessageType → List Violation
  | [] => []
  | type :: rest => message registry type ++ messages registry rest

end

/-- No circle of embeddings. -/
def cycles (registry : Registry) : List Violation :=
  (Cycle.all registry).map .unresolvableCycle

end Validate

/-- The violations of a message on its own. Types outside it are not known. -/
def MessageType.violations (type : MessageType) : List Violation :=
  let registry := Registry.ofMessage type
  Validate.message registry type ++ Validate.cycles registry

/-- The violations of a schema. -/
def Schema.violations (schema : Schema) : List Violation :=
  let registry := Registry.ofSchema schema
  Validate.distinct schema.scope
    (schema.messages.map (·.simpleName) ++ schema.enums.map (·.simpleName)) ++
  Validate.messages registry schema.messages ++ schema.enums.flatMap Validate.enum ++
  Validate.cycles registry

end Protobuf
