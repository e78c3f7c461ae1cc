import Mathlib.Data.List.Nodup
import Protobuf.Proofs.Keyed
import Protobuf.Schema.Validate

/-! # Types of a schema

The types of a schema are its messages, nested ones included, and the entry messages of their maps.
-/

namespace Protobuf

/-- Every entry message holds a key and a value. -/
theorem exists_of_mem_entryMessages {fieldType : FieldType} {scope fieldName : String}
    {type : MessageType} (held : type ∈ fieldType.entryMessages scope fieldName) :
    ∃ name key value, type = entryMessage name key value := by
  induction fieldType generalizing scope fieldName with
  | map key value ihKey ihValue =>
    rw [FieldType.entryMessages, List.mem_cons, List.mem_append] at held
    rcases held with rfl | inKey | inValue
    · exact ⟨_, key, value, rfl⟩
    · exact ihKey inKey
    · exact ihValue inValue
  | _ => cases held

/-- Two different fields are members of one group. -/
def MessageType.Rivals (type : MessageType) (tag other : Nat) : Prop :=
  tag ≠ other ∧ ∃ field ∈ type.fields, ∃ field' ∈ type.fields, field.tag = tag ∧
    field'.tag = other ∧ field.oneof.isSome ∧ field.oneof = field'.oneof

instance (type : MessageType) (tag other : Nat) : Decidable (type.Rivals tag other) :=
  inferInstanceAs (Decidable (_ ∧ ∃ _ ∈ _, ∃ _ ∈ _, _))

namespace Schema

/-- Every message, each followed by the entry messages of its maps. -/
def types (schema : Schema) : List MessageType :=
  schema.allMessages.flatMap fun type => type :: type.entryMessages

/-- The full names of all types, those of entry messages included. -/
def fullNames (schema : Schema) : List String :=
  schema.types.map (·.name) ++ schema.allEnums.map (·.name)

variable {schema : Schema}

theorem mem_types_iff {type : MessageType} :
    type ∈ schema.types ↔
      ∃ outer ∈ schema.allMessages, type = outer ∨ type ∈ outer.entryMessages := by
  simp [types]

theorem mem_types_of_mem_allMessages {type : MessageType} (held : type ∈ schema.allMessages) :
    type ∈ schema.types :=
  mem_types_iff.2 ⟨type, held, .inl rfl⟩

/-- The registry has the first message of a name. -/
theorem message?_ofSchema (name : String) :
    (Registry.ofSchema schema).message? name = schema.allMessages.find? (·.name = name) := by
  have found := Table.get?_foldl_insertNew MessageType.name (fun type => type) schema.allMessages
    .empty name
  rw [Table.get?_empty, Option.none_or, Option.map_id'] at found
  exact found

/-- The registry has the first enum of a name. -/
theorem enum?_ofSchema (name : String) :
    (Registry.ofSchema schema).enum? name = schema.allEnums.find? (·.name = name) := by
  have found := Table.get?_foldl_insertNew EnumType.name (fun type => type) schema.allEnums
    .empty name
  rw [Table.get?_empty, Option.none_or, Option.map_id'] at found
  exact found

end Schema

end Protobuf
