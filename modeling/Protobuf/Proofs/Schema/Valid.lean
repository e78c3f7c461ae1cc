import Protobuf.Proofs.Schema.Rules

/-! # What reading and writing rest on

A well-formed message has fields with distinct tags in range, references that resolve, maps with
keys of a built-in kind, and groups that list exactly the fields that name them. Main statement:
`MessageType.WellFormed.valid`. -/

namespace Protobuf

open Wire

/-- A field that keeps the rules for a field on its own. -/
structure Field.Valid (registry : Registry) (field : Field) : Prop where
  pos : 1 ≤ field.tag
  le : field.tag ≤ maxTag
  resolved : registry.resolves field.type
  map : ∀ key value, field.type = .map key value →
    field.cardinality = .singular ∧ key.isValidMapKey ∧ value.isMap = false
  packed : field.cardinality = .packed → field.type.isPackable
  member : field.oneof.isSome → field.cardinality = .singular ∧ field.isMap = false

/-- A message that keeps the rules for its fields and groups. -/
structure MessageType.Valid (registry : Registry) (type : MessageType) : Prop where
  fields : ∀ field ∈ type.fields, field.Valid registry
  tags : type.fields.Pairwise (·.tag ≠ ·.tag)
  listed : ∀ field ∈ type.fields, ∀ group, field.oneof = some group →
    ∃ tags, type.oneofs.get? group = some tags ∧ tags.contains field.tag
  members : ∀ group tags, type.oneofs.get? group = some tags → ∀ tag, tags.contains tag →
    ∃ field ∈ type.fields, field.tag = tag ∧ field.oneof = some group

/-- A member of a group has a single value. -/
theorem Field.Valid.isRepeated_eq_false {registry : Registry} {field : Field}
    (valid : field.Valid registry) (grouped : field.oneof.isSome) : field.isRepeated = false := by
  obtain ⟨single, unmapped⟩ := valid.member grouped
  rw [Field.isRepeated, single, unmapped]
  rfl

/-- The fields of a valid message are told apart by their tags. -/
theorem MessageType.Valid.eq_of_tag {registry : Registry} {type : MessageType}
    (valid : type.Valid registry) {field other : Field} (held : field ∈ type.fields)
    (held' : other ∈ type.fields) (same : field.tag = other.tag) : field = other :=
  List.inj_on_of_nodup_map (List.pairwise_map.2 valid.tags) held held' same

/-- A well-formed field is valid. -/
theorem Field.WellFormed.valid {registry : Registry} {reserved : Reserved} {field : Field}
    (formed : field.WellFormed registry reserved) : field.Valid registry where
  pos := formed.range.1
  le := Nat.le_of_lt_succ formed.range.2
  resolved := by
    cases kind : field.type with
    | enum name => exact formed.enum name kind
    | message name => exact formed.message name kind
    | _ => rfl
  map key value kind :=
    ⟨formed.mapCardinality key value kind,
      FieldType.isValidMapKey_iff.2 (formed.mapKey key value kind),
      Bool.eq_false_iff.2 (formed.mapValue key value kind)⟩
  packed isPacked := FieldType.isPackable_iff.2 (formed.packed isPacked)
  member grouped := by
    obtain ⟨single, unmapped⟩ := formed.member (Option.isSome_iff_ne_none.1 grouped)
    exact ⟨single, Bool.eq_false_iff.2 unmapped⟩

/-- A well-formed message is valid. -/
theorem MessageType.WellFormed.valid {registry : Registry} {type : MessageType}
    (formed : type.WellFormed registry) : type.Valid registry where
  fields field held := (formed.fields field held).valid
  tags := List.pairwise_map.1 formed.tags
  listed field held group named := by
    obtain ⟨tags, listed⟩ := Option.isSome_iff_exists.1 (formed.grouped field held group named)
    exact ⟨tags, listed, ((formed.groups group tags listed).2 _).2 ⟨field, held, rfl, named⟩⟩
  members group tags listed tag := ((formed.groups group tags listed).2 tag).1

end Protobuf
