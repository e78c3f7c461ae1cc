import Mathlib.Data.List.Pairwise
import Protobuf.Proofs.Schema.Valid
import Protobuf.Proofs.Schema.Violations

/-! # Accepted schemas

A schema is accepted when it keeps every rule and no two of its types have one full name. The entry
messages of maps are types like any other. Main statements: every type of an accepted schema is
valid, is known by its name alone, and finds the types its fields refer to. -/

namespace Protobuf

/-- A map has an entry message of its own. -/
theorem FieldType.mem_entryMessages (key value : FieldType) (scope fieldName : String) :
    entryMessage (Name.join scope (entryName fieldName)) key value ∈
      (map key value).entryMessages scope fieldName := by
  rw [entryMessages]
  exact List.mem_cons_self

/-- Each map field of a message has its entry message there. -/
theorem MessageType.mem_entryMessages {type : MessageType} {field : Field}
    (declared : field ∈ type.fields) {key value : FieldType} (isMap : field.type = .map key value) :
    entryMessage (Name.join type.name (entryName field.name)) key value ∈ type.entryMessages :=
  List.mem_flatMap.2 ⟨field, declared, isMap ▸ FieldType.mem_entryMessages ..⟩

namespace Schema

/-- A schema that keeps every rule and gives no two types one full name. -/
structure Accepted (schema : Schema) : Prop where
  lawful : schema.violations = []
  distinct : schema.fullNames.Nodup

variable {schema : Schema}

namespace Accepted

/-- The types of an accepted schema are known by their names. -/
theorem eq_of_name (accepted : schema.Accepted) {type other : MessageType}
    (held : type ∈ schema.types) (held' : other ∈ schema.types) (same : type.name = other.name) :
    type = other :=
  List.inj_on_of_nodup_map (List.Nodup.of_append_left accepted.distinct) held held' same

/-- Every message of an accepted schema is found under its name. -/
theorem message?_of_mem (accepted : schema.Accepted) {type : MessageType}
    (held : type ∈ schema.allMessages) :
    (Registry.ofSchema schema).message? type.name = some type := by
  rw [message?_ofSchema]
  refine find?_eq_some_of_unique held (by simp) fun other held' same => ?_
  exact accepted.eq_of_name (mem_types_of_mem_allMessages held')
    (mem_types_of_mem_allMessages held) (by simpa using same)

/-- Every type of an accepted schema keeps the rules for messages. -/
theorem wellFormed (accepted : schema.Accepted) {type : MessageType} (held : type ∈ schema.types) :
    type.WellFormed (.ofSchema schema) :=
  (violations_eq_nil_iff.1 accepted.lawful).messages type held

/-- Every type of an accepted schema is valid. -/
theorem valid (accepted : schema.Accepted) {type : MessageType} (held : type ∈ schema.types) :
    type.Valid (.ofSchema schema) :=
  (accepted.wellFormed held).valid

/-- The fields of a map in an accepted message make one entry message. -/
theorem entryMessages_of_map (accepted : schema.Accepted) {type : MessageType}
    (held : type ∈ schema.types) {field : Field} (declared : field ∈ type.fields)
    {key value : FieldType} (isMap : field.type = .map key value) :
    field.type.entryMessages type.name field.name =
      [entryMessage (Name.join type.name (entryName field.name)) key value] :=
  ((accepted.wellFormed held).fields field declared).entryMessages_of_map isMap type.name

/-- Only messages that are declared have maps, for the entries of a map hold no maps. -/
theorem mem_allMessages_of_map (accepted : schema.Accepted) {type : MessageType}
    (held : type ∈ schema.types) {field : Field} (declared : field ∈ type.fields)
    {key value : FieldType} (isMap : field.type = .map key value) : type ∈ schema.allMessages := by
  obtain ⟨outer, outermost, inside⟩ := mem_types_iff.1 held
  rcases inside with rfl | entry
  · exact outermost
  · obtain ⟨mapped, among, here⟩ := List.mem_flatMap.1 entry
    have outerHeld := mem_types_of_mem_allMessages outermost
    cases kind : mapped.type with
    | map key' value' =>
      rw [accepted.entryMessages_of_map outerHeld among kind, List.mem_singleton] at here
      obtain ⟨-, keyed, single⟩ :=
        ((accepted.valid outerHeld).fields mapped among).map key' value' kind
      subst here
      simp only [entryMessage, List.mem_cons, List.not_mem_nil, or_false] at declared
      rcases declared with rfl | rfl
      · simp only at isMap
        subst isMap
        simp [FieldType.isValidMapKey] at keyed
      · simp only at isMap
        subst isMap
        simp [FieldType.isMap] at single
    | _ => simp [kind, FieldType.entryMessages] at here

/-- The entry message of a map field is a type of the schema. -/
theorem entryMessage_mem (accepted : schema.Accepted) {type : MessageType}
    (held : type ∈ schema.types) {field : Field} (declared : field ∈ type.fields)
    {key value : FieldType} (isMap : field.type = .map key value) :
    entryMessage (Name.join type.name (entryName field.name)) key value ∈ schema.types :=
  mem_types_iff.2 ⟨type, accepted.mem_allMessages_of_map held declared isMap,
    .inr (MessageType.mem_entryMessages declared isMap)⟩

/-- An entry message is none of the messages that are declared, and has the name of none. -/
theorem name_ne_of_entry (accepted : schema.Accepted) {type outer entry : MessageType}
    (held : type ∈ schema.allMessages) (outermost : outer ∈ schema.allMessages)
    (inside : entry ∈ outer.entryMessages) : entry.name ≠ type.name := by
  have distinct := List.Nodup.of_append_left accepted.distinct
  rw [types, List.map_flatMap, List.nodup_flatMap] at distinct
  obtain ⟨each, apart⟩ := distinct
  have : Std.Symm (Function.onFun List.Disjoint fun type : MessageType =>
      (type :: type.entryMessages).map (·.name)) :=
    ⟨fun _ _ => List.disjoint_symm⟩
  intro same
  have among : entry.name ∈ outer.entryMessages.map (·.name) := List.mem_map_of_mem inside
  by_cases own : outer = type
  · subst own
    have nodup := each outer outermost
    rw [List.map_cons, List.nodup_cons] at nodup
    exact nodup.1 (same ▸ among)
  · have disjoint := apart.forall outermost held own
    exact disjoint (List.mem_cons_of_mem _ among) (same ▸ List.mem_cons_self)

/-- A field that refers to a message refers to one that is declared. -/
theorem exists_of_message (accepted : schema.Accepted) {type : MessageType}
    (held : type ∈ schema.types) {field : Field} (declared : field ∈ type.fields) {name : String}
    (refers : field.type = .message name) : ∃ target ∈ schema.allMessages, target.name = name := by
  have resolved := ((accepted.valid held).fields field declared).resolved
  rw [refers, Registry.resolves, message?_ofSchema, Option.isSome_iff_exists] at resolved
  obtain ⟨target, found⟩ := resolved
  exact ⟨target, List.mem_of_find?_eq_some found, by simpa using List.find?_some found⟩

end Accepted

/-- Trees of nodes that have a number, children by name, a run of numbers, and a text or a flag as
their label. -/
def tree : Schema :=
  let label : Option String := some "label"
  let fields : List Field := [{ name := "id", tag := 1, type := .builtin .uint32 },
    { name := "children", tag := 2, type := .map (.builtin .string) (.message "Node") },
    { name := "marks", tag := 3, type := .builtin .sint32, cardinality := .packed },
    { name := "text", tag := 4, type := .builtin .string, oneof := label },
    { name := "flag", tag := 5, type := .builtin .bool, oneof := label }]
  { messages := [{ name := "Node", fields := fields, oneofs := .ofFields [] fields }] }

/-- The schema of trees is accepted. -/
theorem accepted_tree : tree.Accepted :=
  ⟨by decide, by decide⟩

end Schema

end Protobuf
