import Mathlib.Data.List.Flatten
import Protobuf.Proofs.Schema.Accepted

/-! # Schemas without some fields

A schema in which one message has lost some of its fields, of each group all or none, keeps every
rule that it kept before, and its messages refer to no more messages than before. Main statement:
`Schema.Accepted.without`. -/

namespace Protobuf

open Relation

namespace MessageType

/-- The message without the fields of some tags, and without the groups that have no fields left. -/
def without (type : MessageType) (dropped : Nat → Bool) : MessageType :=
  { type with
    fields := type.fields.filter fun field => !dropped field.tag
    oneofs := type.oneofs.filter fun group =>
      type.fields.any fun field => !dropped field.tag && decide (field.oneof = some group) }

/-- Every group keeps all of its fields or none. -/
def KeepsGroupsWhole (type : MessageType) (dropped : Nat → Bool) : Prop :=
  ∀ field ∈ type.fields, ∀ other ∈ type.fields, field.oneof.isSome → field.oneof = other.oneof →
    dropped field.tag = dropped other.tag

instance (type : MessageType) (dropped : Nat → Bool) : Decidable (type.KeepsGroupsWhole dropped) :=
  inferInstanceAs (Decidable (∀ field ∈ type.fields, ∀ other ∈ type.fields, field.oneof.isSome →
    field.oneof = other.oneof → dropped field.tag = dropped other.tag))

variable (name : String) (dropped : Nat → Bool)

mutual

/-- The message in which the message of a name, itself or one nested in it, lacks some fields. -/
def withoutIn : MessageType → MessageType
  | ⟨own, fields, enums, nested, oneofs, reserved⟩ =>
    let type : MessageType := ⟨own, fields, enums, allWithoutIn nested, oneofs, reserved⟩
    if own = name then type.without dropped else type

/-- The messages in which the message of a name, one of them or nested in one, lacks some fields. -/
def allWithoutIn : List MessageType → List MessageType
  | [] => []
  | type :: rest => type.withoutIn :: allWithoutIn rest

end

theorem allWithoutIn_eq_map (types : List MessageType) :
    allWithoutIn name dropped types = types.map (withoutIn name dropped) := by
  induction types with
  | nil => rfl
  | cons type rest ih => rw [allWithoutIn, ih, List.map_cons]

/-- What loses fields in a message. -/
theorem withoutIn_eq (type : MessageType) :
    type.withoutIn name dropped =
      if type.name = name
      then ({ type with nestedMessages := allWithoutIn name dropped type.nestedMessages } :
        MessageType).without dropped
      else { type with nestedMessages := allWithoutIn name dropped type.nestedMessages } := by
  obtain ⟨own, fields, enums, nested, oneofs, reserved⟩ := type
  rfl

variable {name dropped} {type : MessageType}

@[simp] theorem name_withoutIn : (type.withoutIn name dropped).name = type.name := by
  rw [withoutIn_eq]
  split <;> rfl

theorem fields_withoutIn : (type.withoutIn name dropped).fields =
    if type.name = name then type.fields.filter (fun field => !dropped field.tag)
    else type.fields := by
  rw [withoutIn_eq]
  split <;> rfl

theorem oneofs_withoutIn : (type.withoutIn name dropped).oneofs =
    if type.name = name then (type.without dropped).oneofs else type.oneofs := by
  rw [withoutIn_eq]
  split <;> rfl

theorem fields_withoutIn_sublist :
    (type.withoutIn name dropped).fields.Sublist type.fields := by
  rw [fields_withoutIn]
  split
  · exact List.filter_sublist
  · exact .refl _

mutual

theorem withNested_withoutIn : ∀ type : MessageType,
    (type.withoutIn name dropped).withNested =
      type.withNested.map (withoutIn name dropped)
  | ⟨own, fields, enums, nested, oneofs, reserved⟩ => by
    rw [withNested, List.map_cons, ← allNested_withoutIn nested]
    rw [withoutIn]
    split <;> rfl

theorem allNested_withoutIn : ∀ types : List MessageType,
    allNested (allWithoutIn name dropped types) =
      (allNested types).map (withoutIn name dropped)
  | [] => rfl
  | type :: rest => by
    rw [allWithoutIn, allNested, allNested, List.map_append, withNested_withoutIn type,
      allNested_withoutIn rest]

end

mutual

theorem enumsWithin_withoutIn : ∀ type : MessageType,
    (type.withoutIn name dropped).enumsWithin = type.enumsWithin
  | ⟨own, fields, enums, nested, oneofs, reserved⟩ => by
    rw [enumsWithin, ← allEnumsWithin_withoutIn nested, withoutIn]
    split <;> rfl

theorem allEnumsWithin_withoutIn : ∀ types : List MessageType,
    allEnumsWithin (allWithoutIn name dropped types) = allEnumsWithin types
  | [] => rfl
  | type :: rest => by
    rw [allWithoutIn, allEnumsWithin, allEnumsWithin, enumsWithin_withoutIn type,
      allEnumsWithin_withoutIn rest]

end

theorem simpleName_withoutIn : (type.withoutIn name dropped).simpleName = type.simpleName := by
  rw [simpleName, name_withoutIn, simpleName]

/-- A message without some fields has fewer entry messages. -/
theorem entryMessages_withoutIn_sublist :
    (type.withoutIn name dropped).entryMessages.Sublist type.entryMessages := by
  rw [entryMessages, name_withoutIn]
  exact fields_withoutIn_sublist.flatMap _

end MessageType

/-! ## Rules -/

section Rules

variable {registry other : Registry}

/-- Registries that know the same enums, and messages of the same names. -/
structure Registry.Alike (registry other : Registry) : Prop where
  enum : ∀ name, other.enum? name = registry.enum? name
  message : ∀ name, (other.message? name).isSome = (registry.message? name).isSome

theorem DefaultValue.Fits.alike (alike : registry.Alike other) {type : FieldType}
    {default : DefaultValue} (fits : default.Fits registry type) : default.Fits other type := by
  cases fits with
  | bool => exact .bool
  | signed32 kind low high => exact .signed32 kind low high
  | signed64 kind low high => exact .signed64 kind low high
  | unsigned32 kind low high => exact .unsigned32 kind low high
  | unsigned64 kind low high => exact .unsigned64 kind low high
  | whole kind => exact .whole kind
  | real kind => exact .real kind
  | text kind => exact .text kind
  | named known => exact .named fun type found => known type (alike.enum _ ▸ found)
  | numbered low high => exact .numbered low high

theorem Field.WellFormed.alike (alike : registry.Alike other) {reserved : Reserved} {field : Field}
    (formed : field.WellFormed registry reserved) : field.WellFormed other reserved :=
  { formed with
    enum := fun name kind => by rw [alike.enum]; exact formed.enum name kind
    message := fun name kind => by rw [alike.message]; exact formed.message name kind
    default := fun default given => (formed.default default given).alike alike }

theorem MessageType.WellFormed.alike (alike : registry.Alike other) {type : MessageType}
    (formed : type.WellFormed registry) : type.WellFormed other :=
  { formed with fields := fun field held => (formed.fields field held).alike alike }

/-- A well-formed message without some fields is well formed if it keeps its groups whole. -/
theorem MessageType.WellFormed.without {type : MessageType} (formed : type.WellFormed registry)
    {dropped : Nat → Bool} (whole : type.KeepsGroupsWhole dropped) :
    (type.without dropped).WellFormed registry where
  identifier := formed.identifier
  fields field held := formed.fields field (List.mem_filter.1 held).1
  tags := formed.tags.sublist (List.filter_sublist.map _)
  names := formed.names.sublist (List.filter_sublist.map _)
  groups group tags listed := by
    rw [MessageType.without, Table.get?_filter] at listed
    split at listed
    · rename_i some_kept
      obtain ⟨kept, held, both⟩ := List.any_eq_true.1 some_kept
      rw [Bool.and_eq_true, Bool.not_eq_true', decide_eq_true_iff] at both
      obtain ⟨exists_tag, members⟩ := formed.groups group tags listed
      refine ⟨exists_tag, fun tag => (members tag).trans ?_⟩
      constructor
      · rintro ⟨field, declared, same, named⟩
        have alike := whole field declared kept held (by rw [named]; rfl)
          (named.trans both.2.symm)
        exact ⟨field, List.mem_filter.2 ⟨declared, by rw [alike, both.1]; rfl⟩, same, named⟩
      · rintro ⟨field, declared, same, named⟩
        exact ⟨field, (List.mem_filter.1 declared).1, same, named⟩
    · cases listed
  grouped field held group named := by
    obtain ⟨declared, kept⟩ := List.mem_filter.1 held
    have some_kept : (type.fields.any fun field =>
        !dropped field.tag && decide (field.oneof = some group)) = true :=
      List.any_eq_true.2 ⟨field, declared, by rw [kept, named]; simp⟩
    rw [MessageType.without, Table.contains, Table.get?_filter, if_pos some_kept]
    exact formed.grouped field declared group named
  declared := formed.declared.sublist
    ((List.Sublist.refl _).append ((List.filter_sublist.filter _).map _))

/-- A well-formed message in which one lacks some fields is well formed if that one keeps its groups
whole. -/
theorem MessageType.WellFormed.withoutIn {type : MessageType} (formed : type.WellFormed registry)
    {name : String} {dropped : Nat → Bool}
    (whole : type.name = name → type.KeepsGroupsWhole dropped) :
    (type.withoutIn name dropped).WellFormed registry := by
  let inner : MessageType :=
    { type with nestedMessages := allWithoutIn name dropped type.nestedMessages }
  have formedInner : inner.WellFormed registry :=
    { formed with
      declared := by
        have declared := formed.declared
        simpa [Validate.declaredNames, inner, allWithoutIn_eq_map, Function.comp_def,
          simpleName_withoutIn] using declared }
  rw [withoutIn_eq]
  split
  · rename_i here
    exact formedInner.without (whole here)
  · exact formedInner

end Rules

/-- A type names a message: as what a field holds or as part of a map. -/
def FieldType.Names (target : String) : FieldType → Prop
  | .builtin _ | .enum _ => False
  | .message name => name = target
  | .map key value => key.Names target ∨ value.Names target

instance FieldType.decidableNames (target : String) :
    (type : FieldType) → Decidable (type.Names target)
  | .builtin _ | .enum _ => inferInstanceAs (Decidable False)
  | .message name => inferInstanceAs (Decidable (name = target))
  | .map key value =>
    have := decidableNames target key
    have := decidableNames target value
    inferInstanceAs (Decidable (key.Names target ∨ value.Names target))

namespace Schema

/-- A field of the message of a name refers to the message of another name. -/
def Refers (schema : Schema) (name target : String) : Prop :=
  ∃ type ∈ schema.allMessages, type.name = name ∧
    ∃ field ∈ type.fields, field.type.Names target

/-- The schema in which the message of a name lacks the fields of some tags. -/
def without (schema : Schema) (name : String) (dropped : Nat → Bool) : Schema :=
  { schema with messages := MessageType.allWithoutIn name dropped schema.messages }

variable {schema : Schema} {name : String} {dropped : Nat → Bool}

theorem allMessages_without : (schema.without name dropped).allMessages =
    schema.allMessages.map (MessageType.withoutIn name dropped) :=
  MessageType.allNested_withoutIn schema.messages

theorem allEnums_without : (schema.without name dropped).allEnums = schema.allEnums := by
  rw [allEnums, without, MessageType.allEnumsWithin_withoutIn, allEnums]

theorem message?_without (target : String) :
    (Registry.ofSchema (schema.without name dropped)).message? target =
      ((Registry.ofSchema schema).message? target).map (MessageType.withoutIn name dropped) := by
  rw [message?_ofSchema, message?_ofSchema, allMessages_without, List.find?_map]
  simp only [Function.comp_def, MessageType.name_withoutIn]

theorem enum?_without (target : String) :
    (Registry.ofSchema (schema.without name dropped)).enum? target =
      (Registry.ofSchema schema).enum? target := by
  simp only [Registry.enum?, Registry.ofSchema, Registry.ofTypes, allEnums_without]

theorem alike_without :
    (Registry.ofSchema schema).Alike (.ofSchema (schema.without name dropped)) where
  enum := enum?_without
  message target := by rw [message?_without, Option.isSome_map]

/-- A type of a schema without some fields is one of the schema, perhaps without some fields. -/
theorem exists_of_mem_types_without {type : MessageType}
    (held : type ∈ (schema.without name dropped).types) :
    ∃ before ∈ schema.types, type = before ∨
      before ∈ schema.allMessages ∧ type = before.withoutIn name dropped := by
  obtain ⟨outer, outermost, inside⟩ := mem_types_iff.1 held
  rw [allMessages_without] at outermost
  obtain ⟨before, declared, rfl⟩ := List.mem_map.1 outermost
  rcases inside with rfl | entry
  · exact ⟨before, mem_types_iff.2 ⟨before, declared, .inl rfl⟩, .inr ⟨declared, rfl⟩⟩
  · have entry := MessageType.entryMessages_withoutIn_sublist.subset entry
    exact ⟨type, mem_types_iff.2 ⟨before, declared, .inr entry⟩, .inl rfl⟩

/-- The names of a schema without some fields are names of the schema. -/
theorem fullNames_without_sublist :
    (schema.without name dropped).fullNames.Sublist schema.fullNames := by
  rw [fullNames, fullNames, allEnums_without]
  refine List.Sublist.append ?_ (.refl _)
  rw [types, types, allMessages_without, List.flatMap_map, List.map_flatMap, List.map_flatMap]
  refine List.Sublist.flatMap_right _ fun type _ => ?_
  rw [List.map_cons, List.map_cons, MessageType.name_withoutIn]
  exact (MessageType.entryMessages_withoutIn_sublist.map _).cons_cons _

theorem embeds_of_without {outer inner : String}
    (embeds : (Registry.ofSchema (schema.without name dropped)).Embeds outer inner) :
    (Registry.ofSchema schema).Embeds outer inner := by
  obtain ⟨type, found, known, field, held, kind⟩ := embeds
  rw [message?_without, Option.map_eq_some_iff] at found
  obtain ⟨before, found, rfl⟩ := found
  rw [message?_without, Option.isSome_map] at known
  exact ⟨before, found, known, field, MessageType.fields_withoutIn_sublist.subset held, kind⟩

theorem WellFormed.without (formed : schema.WellFormed)
    (whole : ∀ type ∈ schema.allMessages, type.name = name → type.KeepsGroupsWhole dropped) :
    (schema.without name dropped).WellFormed where
  names := by
    have names := formed.names
    simpa [Schema.without, MessageType.allWithoutIn_eq_map, Function.comp_def,
      MessageType.simpleName_withoutIn] using names
  messages type held := by
    obtain ⟨before, among, rfl | ⟨declared, rfl⟩⟩ := exists_of_mem_types_without held
    · exact (formed.messages _ among).alike alike_without
    · exact ((formed.messages _ among).alike alike_without).withoutIn (whole before declared)
  enums := by
    rw [allEnums_without]
    exact formed.enums
  acyclic target back :=
    formed.acyclic target (TransGen.mono (fun _ _ => embeds_of_without) _ _ back)

/-- A message of a schema without some fields refers only to messages that it referred to before. -/
theorem refers_of_without {target other : String}
    (refers : (schema.without name dropped).Refers target other) : schema.Refers target other := by
  obtain ⟨type, held, named, field, declared, names⟩ := refers
  rw [allMessages_without] at held
  obtain ⟨before, among, rfl⟩ := List.mem_map.1 held
  rw [MessageType.name_withoutIn] at named
  exact ⟨before, among, named, field, MessageType.fields_withoutIn_sublist.subset declared, names⟩

/-- An accepted schema in which a message lacks some fields, of each group all or none, is
accepted. -/
theorem Accepted.without (accepted : schema.Accepted)
    (whole : ∀ type ∈ schema.allMessages, type.name = name → type.KeepsGroupsWhole dropped) :
    (schema.without name dropped).Accepted where
  lawful := violations_eq_nil_iff.2 ((violations_eq_nil_iff.1 accepted.lawful).without whole)
  distinct := accepted.distinct.sublist fullNames_without_sublist

end Schema

/-- Parcels have a number, a sender, and a note or a flag as their mark. -/
def MessageType.parcel : MessageType :=
  let mark : Option String := some "mark"
  let fields : List Field := [{ name := "id", tag := 1, type := .builtin .uint32 },
    { name := "sender", tag := 2, type := .message "Party" },
    { name := "note", tag := 3, type := .builtin .string, oneof := mark },
    { name := "urgent", tag := 4, type := .builtin .bool, oneof := mark }]
  { name := "Parcel", fields := fields, oneofs := .ofFields [] fields }

namespace Schema

/-- Parcels and the parties that send them. -/
def parcel : Schema :=
  { messages := [.parcel, { name := "Party", fields :=
      [{ name := "name", tag := 1, type := .builtin .string }] }] }

/-- The schema of parcels is accepted. -/
theorem accepted_parcel : parcel.Accepted :=
  ⟨by decide, by decide⟩

/-- Parcels refer to parties only, and nothing leads back to a parcel. -/
theorem not_transGen_refers_parcel : ¬TransGen parcel.Refers "Parcel" "Parcel" := by
  intro back
  obtain ⟨name, refers⟩ : ∃ name, parcel.Refers name "Parcel" := by
    cases back with
    | single refers => exact ⟨_, refers⟩
    | tail _ refers => exact ⟨_, refers⟩
  obtain ⟨type, held, -, field, declared, names⟩ := refers
  have other : ∀ type ∈ parcel.allMessages, ∀ field ∈ type.fields,
      ¬field.type.Names "Parcel" := by decide
  exact other type held field declared names

end Schema

end Protobuf
