import Protobuf.Proofs.Schema.Accepted
import Protobuf.Proofs.Value.Normal
import Protobuf.Proofs.Wire.Record

/-! # Messages of a schema

When a message is one of its type, going by the declarations alone: each field that is set is
declared and holds what its type and cardinality say, keys of maps are distinct, no two members of
a group are set, and what the message does not know is records of tags that the type does not
declare. Nothing here speaks of codecs. -/

namespace Protobuf

open Wire

/-- A value is one of a built-in type. -/
def Builtin.Holds : Builtin → Value → Prop
  | .int32, .int32 _ | .sint32, .int32 _ | .sfixed32, .int32 _ => True
  | .int64, .int64 _ | .sint64, .int64 _ | .sfixed64, .int64 _ => True
  | .uint32, .uint32 _ | .fixed32, .uint32 _ => True
  | .uint64, .uint64 _ | .fixed64, .uint64 _ => True
  | .bool, .bool _ => True
  | .float, .float _ => True
  | .double, .double _ => True
  | .string, .string _ => True
  | .bytes, .bytes _ => True
  | _, _ => False

namespace Schema

mutual

/-- A value is a single one of a type. -/
inductive Holds (schema : Schema) : FieldType → Value → Prop
  | builtin {type : Builtin} {value : Value} (holds : type.Holds value) :
    Holds schema (.builtin type) value
  | enum {name : String} {number : Int32} : Holds schema (.enum name) (.enum number)
  | message {name : String} {message : Message} (named : message.typeName = name)
    (conforms : Conforms schema message) : Holds schema (.message name) (.message message)

/-- A value is what a field holds when it is set. -/
inductive FieldHolds (schema : Schema) : Field → Value → Prop
  | single {field : Field} {value : Value} (single : field.cardinality.isRepeated = false)
    (holds : Holds schema field.type value) : FieldHolds schema field value
  | list {field : Field} {elements : List Value} (repeated : field.cardinality.isRepeated)
    (hold : ∀ element ∈ elements, Holds schema field.type element) :
    FieldHolds schema field (.list elements)
  | map {field : Field} {key value : FieldType} {entries : List (Value × Value)}
    (isMap : field.type = .map key value) (keys : ∀ entry ∈ entries, Holds schema key entry.1)
    (values : ∀ entry ∈ entries, Holds schema value entry.2)
    (distinct : (entries.map (·.1)).Nodup) : FieldHolds schema field (.map entries)

/-- A message is one of its type. Its fields stand in the order of their tags. -/
inductive Conforms (schema : Schema) : Message → Prop
  | intro {message : Message} {type : MessageType} (held : type ∈ schema.types)
    (named : type.name = message.typeName) (ordered : message.Ordered)
    (declared : ∀ tag, (message.get? tag).isSome → ∃ field ∈ type.fields, field.tag = tag)
    (holds : ∀ field ∈ type.fields, ∀ value, message.get? field.tag = some value →
      FieldHolds schema field value)
    (exclusive : ∀ field ∈ type.fields, ∀ other ∈ type.fields, field.oneof.isSome →
      field.oneof = other.oneof → (message.get? field.tag).isSome →
      (message.get? other.tag).isSome → field.tag = other.tag)
    (unknown : ∀ record ∈ message.unknown, record.IsRecord ∧
      ∀ field ∈ type.fields, field.tag ≠ record.tag) : Conforms schema message

end

section FieldHolds

variable {schema : Schema} {field : Field} {value : Value}

theorem fieldHolds_iff_of_single (unmapped : field.type.isMap = false)
    (single : field.cardinality.isRepeated = false) :
    schema.FieldHolds field value ↔ schema.Holds field.type value := by
  constructor
  · intro holds
    cases holds with
    | single _ holds => exact holds
    | list repeated =>
      rw [single] at repeated
      cases repeated
    | map isMap =>
      rw [isMap] at unmapped
      cases unmapped
  · exact .single single

theorem fieldHolds_iff_of_repeated (unmapped : field.type.isMap = false)
    (repeated : field.cardinality.isRepeated) :
    schema.FieldHolds field value ↔
      ∃ elements, value = .list elements ∧
        ∀ element ∈ elements, schema.Holds field.type element := by
  constructor
  · intro holds
    cases holds with
    | single single =>
      rw [repeated] at single
      cases single
    | list _ hold => exact ⟨_, rfl, hold⟩
    | map isMap =>
      rw [isMap] at unmapped
      cases unmapped
  · rintro ⟨elements, rfl, hold⟩
    exact .list repeated hold

/-- A field of a map type is never repeated, so what it holds are maps. -/
theorem fieldHolds_iff_of_map {key held : FieldType} (kind : field.type = .map key held)
    (single : field.cardinality.isRepeated = false) :
    schema.FieldHolds field value ↔ ∃ entries, value = .map entries ∧
      (∀ entry ∈ entries, schema.Holds key entry.1) ∧
      (∀ entry ∈ entries, schema.Holds held entry.2) ∧ (entries.map (·.1)).Nodup := by
  constructor
  · intro holds
    cases holds with
    | single _ holds =>
      rw [kind] at holds
      cases holds
    | list repeated =>
      rw [single] at repeated
      cases repeated
    | map isMap keys values distinct =>
      obtain ⟨rfl, rfl⟩ := FieldType.map.inj (kind.symm.trans isMap)
      exact ⟨_, rfl, keys, values, distinct⟩
  · rintro ⟨entries, rfl, keys, values, distinct⟩
    exact .map kind keys values distinct

end FieldHolds

/-- The type with a name. -/
def type? (schema : Schema) (name : String) : Option MessageType :=
  schema.types.find? (·.name = name)

/-- Whether zeros of a field of a type are left out: its presence cannot be told from a value that
is zero, as that of a field with any number of values from there being none. -/
def omits (schema : Schema) (name : String) (tag : Nat) : Bool :=
  ((schema.type? name).bind (·.fieldTagged? tag)).any fun field => !field.hasExplicitPresence

/-- The normal form of a message: fields without presence that hold zero are left out, and so are
lists and maps that are empty, at every depth. -/
def normal (schema : Schema) (message : Message) : Message :=
  message.normal schema.omits

end Schema

end Protobuf
