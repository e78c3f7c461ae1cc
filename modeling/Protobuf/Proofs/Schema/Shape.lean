import Protobuf.Proofs.Schema.Typing

/-! # Messages of the right shape

A message has the shape of its type when its type declares every field that is set, each of these
holds a value of the kind it is declared with, down to the messages inside it, and no two members
of a group are set. What a message does not know, the order of its fields and equal keys of a map
do not matter. Some values may be excused: of these a field may hold any, if it has no presence. -/

namespace Protobuf

/-- The field of an entry message that holds the key. -/
def Field.entryKey (type : FieldType) : Field :=
  { name := "key", tag := 1, type := type }

/-- The field of an entry message that holds the value. -/
def Field.entryValue (type : FieldType) : Field :=
  { name := "value", tag := 2, type := type }

/-- A field that leaves out zeros: one of a single value whose presence cannot be told. -/
def Field.OmitsZero (field : Field) : Prop :=
  field.isRepeated = false ∧ field.hasExplicitPresence = false

namespace Schema

mutual

/-- A single value has the shape of a type. -/
inductive HasShape (schema : Schema) (excused : Value → Bool) : FieldType → Value → Prop
  | builtin {type : Builtin} {value : Value} (holds : type.Holds value) :
    HasShape schema excused (.builtin type) value
  | enum {name : String} {number : Int32} : HasShape schema excused (.enum name) (.enum number)
  | message {name : String} {message : Message} (named : message.typeName = name)
    (shaped : Shaped schema excused message) :
    HasShape schema excused (.message name) (.message message)

/-- A value has the shape of a field, or is excused there. -/
inductive FieldHasShape (schema : Schema) (excused : Value → Bool) : Field → Value → Prop
  | excused {field : Field} {value : Value} (omits : field.OmitsZero) (zero : excused value) :
    FieldHasShape schema excused field value
  | single {field : Field} {value : Value} (single : field.cardinality.isRepeated = false)
    (shape : HasShape schema excused field.type value) : FieldHasShape schema excused field value
  | list {field : Field} {elements : List Value} (repeated : field.cardinality.isRepeated)
    (each : ∀ element ∈ elements, HasShape schema excused field.type element) :
    FieldHasShape schema excused field (.list elements)
  | map {field : Field} {key value : FieldType} {entries : List (Value × Value)}
    (isMap : field.type = .map key value)
    (keys : ∀ entry ∈ entries, FieldHasShape schema excused (.entryKey key) entry.1)
    (values : ∀ entry ∈ entries, FieldHasShape schema excused (.entryValue value) entry.2) :
    FieldHasShape schema excused field (.map entries)

/-- A message has the shape of its type. -/
inductive Shaped (schema : Schema) (excused : Value → Bool) : Message → Prop
  | intro {message : Message} {type : MessageType} (held : type ∈ schema.types)
    (named : type.name = message.typeName)
    (declared : ∀ tag, (message.get? tag).isSome → ∃ field ∈ type.fields, field.tag = tag)
    (shape : ∀ field ∈ type.fields, ∀ value, message.get? field.tag = some value →
      FieldHasShape schema excused field value)
    (exclusive : ∀ field ∈ type.fields, ∀ other ∈ type.fields, field.oneof.isSome →
      field.oneof = other.oneof → (message.get? field.tag).isSome →
      (message.get? other.tag).isSome → field.tag = other.tag) : Shaped schema excused message

end

variable {schema : Schema} {excused : Value → Bool} {field : Field} {value : Value}

/-- A field of a single value holds such a value or an excused one. -/
theorem fieldHasShape_iff_of_single (unmapped : field.type.isMap = false)
    (single : field.cardinality.isRepeated = false) :
    schema.FieldHasShape excused field value ↔
      (field.OmitsZero ∧ excused value) ∨ schema.HasShape excused field.type value := by
  constructor
  · intro shape
    cases shape with
    | excused omits zero => exact .inl ⟨omits, zero⟩
    | single _ shape => exact .inr shape
    | list repeated =>
      rw [single] at repeated
      cases repeated
    | map isMap =>
      rw [isMap] at unmapped
      cases unmapped
  · rintro (⟨omits, zero⟩ | shape)
    · exact .excused omits zero
    · exact .single single shape

theorem fieldHasShape_iff_of_repeated (unmapped : field.type.isMap = false)
    (repeated : field.cardinality.isRepeated) :
    schema.FieldHasShape excused field value ↔ ∃ elements, value = .list elements ∧
      ∀ element ∈ elements, schema.HasShape excused field.type element := by
  constructor
  · intro shape
    cases shape with
    | excused omits =>
      have never := omits.1
      rw [Field.isRepeated, repeated, Bool.true_or] at never
      cases never
    | single single =>
      rw [repeated] at single
      cases single
    | list _ each => exact ⟨_, rfl, each⟩
    | map isMap =>
      rw [isMap] at unmapped
      cases unmapped
  · rintro ⟨elements, rfl, each⟩
    exact .list repeated each

/-- A field of a map type is never repeated, so what it holds are maps. -/
theorem fieldHasShape_iff_of_map {key held : FieldType} (kind : field.type = .map key held)
    (single : field.cardinality.isRepeated = false) :
    schema.FieldHasShape excused field value ↔ ∃ entries, value = .map entries ∧
      (∀ entry ∈ entries, schema.FieldHasShape excused (.entryKey key) entry.1) ∧
      ∀ entry ∈ entries, schema.FieldHasShape excused (.entryValue held) entry.2 := by
  constructor
  · intro shape
    cases shape with
    | excused omits =>
      have never := omits.1
      rw [Field.isRepeated, Field.isMap, kind, FieldType.isMap, Bool.or_true] at never
      cases never
    | single _ shape =>
      rw [kind] at shape
      cases shape
    | list repeated =>
      rw [single] at repeated
      cases repeated
    | map isMap keys values =>
      obtain ⟨rfl, rfl⟩ := FieldType.map.inj (kind.symm.trans isMap)
      exact ⟨_, rfl, keys, values⟩
  · rintro ⟨entries, rfl, keys, values⟩
    exact .map kind keys values

end Schema

end Protobuf
