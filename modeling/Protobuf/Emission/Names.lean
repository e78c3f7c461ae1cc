import Protobuf.Emission.Identifier
import Protobuf.Schema.Registry

/-! # Names in the emitted module and its structures

Types come first, messages before enums, each by ascending full name; then one enum for each oneof
group of each message. Within a structure, plain fields and groups share the names of its fields,
and the members of each group have names of their own. -/

namespace Protobuf.Emission

/-- The identifiers of a module. -/
structure Names where
  package : String
  types : Table String String
  /-- The enum of a group of a message. -/
  oneofs : List ((String × String) × String)

namespace Names

/-- The identifier of the type with a full name. -/
def typeName (names : Names) (fullName : String) : String :=
  (names.types.get? fullName).getD (typeIdentifier names.package fullName)

/-- The identifier of the enum of a group, unless it is taken. -/
def plainOneof (names : Names) (message group : String) : String :=
  escape (names.typeName message ++ Name.pascal group)

/-- The identifier of the enum of a group of a message. -/
def oneofName (names : Names) (message group : String) : String :=
  (names.oneofs.lookup (message, group)).getD (names.plainOneof message group)

end Names

/-- The oneof groups of a message, by their first members. -/
def groupsOf (type : MessageType) : List String :=
  (type.fields.filterMap (·.oneof)).eraseDups

/-- Give each type an identifier, one after the other. -/
def nameTypes (package : String) (fullNames : List String) : Table String String × KeySet String :=
  fullNames.foldl (fun (types, taken) fullName =>
    let (free, taken) := claim taken (typeIdentifier package fullName)
    (types.insert fullName free, taken)) (.empty, taking reservedTypes)

/-- Give each group an identifier, one after the other. -/
def nameGroups (names : Names) (taken : KeySet String) (groups : List (String × String)) :
    List ((String × String) × String) :=
  let start : List ((String × String) × String) := []
  (groups.foldl (fun (named, taken) (message, group) =>
    let (free, taken) := claim taken (names.plainOneof message group)
    (named ++ [((message, group), free)], taken)) (start, taken)).1

/-- The identifiers of the module for a registry. -/
def Names.of (registry : Registry) (package : String) : Names :=
  let (types, taken) := nameTypes package (registry.messages.keys ++ registry.enums.keys)
  let names : Names := ⟨package, types, []⟩
  let groups := registry.messages.values.flatMap fun type =>
    (groupsOf type).map fun group => (type.name, group)
  { names with oneofs := nameGroups names taken groups }

/-- The identifiers of a field. -/
structure Member where
  /-- The field of the structure that holds the value; for a member of a group, that of the
  group. -/
  identifier : String
  /-- The variant of the enum of the group. -/
  variant : Option String
  /-- The method that gives the value or the default. -/
  getter : Option String
deriving DecidableEq, Repr

/-- The identifiers given out so far in a structure. -/
structure MemberNames where
  fields : KeySet String := taking ["unknown_fields"]
  methods : KeySet String := taking reservedMethods
  /-- The field of each group. -/
  groups : Table String String := .empty
  /-- The variants of each group. -/
  variants : Table String (KeySet String) := .empty
  members : Table Nat Member := .empty

namespace MemberNames

/-- The field of a group: the one it has, or a new one. -/
def groupField (names : MemberNames) (group : String) : String × MemberNames :=
  match names.groups.get? group with
  | some identifier => (identifier, names)
  | none =>
    let (identifier, fields) := claim names.fields (fieldIdentifier group)
    (identifier, { names with fields := fields, groups := names.groups.insert group identifier })

/-- Give a field its identifiers. -/
def add (names : MemberNames) (field : Field) : MemberNames :=
  match field.oneof with
  | some group =>
    let (identifier, names) := names.groupField group
    let (variant, variants) :=
      claim ((names.variants.get? group).getD .empty) (variantIdentifier field.name)
    { names with
      variants := names.variants.insert group variants
      members := names.members.insert field.tag ⟨identifier, some variant, none⟩ }
  | none =>
    let (identifier, fields) := claim names.fields (fieldIdentifier field.name)
    match field.default with
    | some _ =>
      let (getter, methods) := claim names.methods identifier
      { names with
        fields := fields
        methods := methods
        members := names.members.insert field.tag ⟨identifier, none, some getter⟩ }
    | none =>
      { names with
        fields := fields
        members := names.members.insert field.tag ⟨identifier, none, none⟩ }

end MemberNames

/-- The identifiers of the fields of a message, by tag. -/
def membersOf (type : MessageType) : Table Nat Member :=
  (type.fields.foldl MemberNames.add {}).members

end Protobuf.Emission
