import Mathlib.Algebra.GroupWithZero.Nat
import Protobuf.Proofs.Codec.Generate
import Protobuf.Proofs.Schema.Scoped

/-! # One codec for each declared type

A file whose declared names are single parts, and whose schema has no violations, gives each
declared message and each map field one codec, which is derived from that declaration. A declared
name with a dot in it goes unnoticed, for only what follows its last dot is looked at; it can be
the full name of another type. Main statement: `FileDeclaration.one_codec_each`. -/

namespace Protobuf

open Name

namespace Schema

variable {schema : Schema}

namespace Accepted

/-- Every enum of an accepted schema is found under its name. -/
theorem enum?_of_mem (accepted : schema.Accepted) {kind : EnumType}
    (held : kind ∈ schema.allEnums) : (Registry.ofSchema schema).enum? kind.name = some kind := by
  have distinct : (schema.allEnums.map (·.name)).Nodup :=
    (List.nodup_append.1 accepted.distinct).2.1
  rw [enum?_ofSchema]
  refine find?_eq_some_of_unique held (by simp) fun other held' same => ?_
  exact List.inj_on_of_nodup_map distinct held' held (by simpa using same)

/-- The map fields of an accepted message make one entry message each. -/
theorem length_entryMessages (accepted : schema.Accepted) {type : MessageType}
    (held : type ∈ schema.allMessages) :
    type.entryMessages.length = (type.fields.filter (·.isMap)).length := by
  have formed := violations_eq_nil_iff.1 accepted.lawful
  have names := (formed.messages type (mem_types_of_mem_allMessages held)).map_entryMessages
  have lengths := congrArg List.length names
  rwa [List.length_map, List.length_map] at lengths

end Accepted

end Schema

namespace CodecSet

variable {schema : Schema}

/-- The codecs of an accepted schema are those of its types, one each. -/
theorem perm_ofSchema (accepted : schema.Accepted) :
    (ofSchema schema).codecs.entries.Perm
      (schema.types.map fun type => (type.name, .ofType (.ofSchema schema) type)) := by
  have once : (ofSchema schema).codecs.entries.Nodup := by
    refine (ofSchema schema).codecs.ordered.imp fun before => ?_
    rintro rfl
    exact KeyOrder.lt_irrefl _ before
  have names : (schema.types.map (·.name)).Nodup := (List.nodup_append.1 accepted.distinct).1
  have once' : (schema.types.map fun type =>
      (type.name, MessageCodec.ofType (.ofSchema schema) type)).Nodup := by
    refine List.Nodup.of_map Prod.fst ?_
    rwa [List.map_map]
  refine (List.perm_ext_iff_of_nodup once once').2 fun ⟨name, codec⟩ => ?_
  rw [← Table.get?_eq_some_iff, List.mem_map]
  refine (get?_ofSchema_iff accepted).trans (exists_congr fun type => and_congr_right fun _ => ?_)
  rw [Prod.mk.injEq, @eq_comm _ codec]

end CodecSet

/-- A file whose names are single parts, and whose schema has no violations, gives every type a full
name of its own. Its messages and enums are known by these names, and there is exactly one codec for
each message and for each map field, derived from that message and from that field. -/
theorem FileDeclaration.one_codec_each {file : FileDeclaration} {schema : Schema}
    (undotted : ∀ name ∈ file.names, Undotted name) (built : file.build = .ok schema)
    (lawful : schema.violations = []) :
    schema.fullNames.Nodup ∧
    (∀ type ∈ schema.allMessages, (Registry.ofSchema schema).message? type.name = some type ∧
      (CodecSet.ofSchema schema).get? type.name = some (.ofType (.ofSchema schema) type)) ∧
    (∀ type ∈ schema.allMessages, ∀ field ∈ type.fields, ∀ key value,
      field.type = .map key value →
        (CodecSet.ofSchema schema).get? (join type.name (entryName field.name)) =
          some (.ofType (.ofSchema schema)
            (entryMessage (join type.name (entryName field.name)) key value))) ∧
    (∀ kind ∈ schema.allEnums, (Registry.ofSchema schema).enum? kind.name = some kind) ∧
    (CodecSet.ofSchema schema).codecs.entries.length =
      (schema.allMessages.map fun type => 1 + (type.fields.filter (·.isMap)).length).sum := by
  have accepted := file.accepted_of_build undotted built lawful
  refine ⟨accepted.distinct, fun type held => ⟨accepted.message?_of_mem held, ?_⟩, ?_,
    fun kind held => accepted.enum?_of_mem held, ?_⟩
  · exact (CodecSet.get?_ofSchema_iff accepted).2
      ⟨type, Schema.mem_types_of_mem_allMessages held, rfl, rfl⟩
  · intro type held field declared key value isMap
    have entry := accepted.entryMessage_mem (Schema.mem_types_of_mem_allMessages held) declared
      isMap
    exact (CodecSet.get?_ofSchema_iff accepted).2 ⟨_, entry, rfl, rfl⟩
  · rw [(CodecSet.perm_ofSchema accepted).length_eq, List.length_map, Schema.types,
      List.length_flatMap]
    refine congrArg List.sum (List.map_congr_left fun type held => ?_)
    rw [List.length_cons, accepted.length_entryMessages held, Nat.add_comm]

/-- Items of a store, each with words for its labels and in some state. -/
def FileDeclaration.store : FileDeclaration :=
  { package := some "store"
    messages := [{ name := "Item"
                   fields := [{ name := "tags", number := 1, type := "map<string, int32>" }]
                   enums := [{ name := "State", values := [{ name := "NEW" }] }] }] }

/-- The schema of a store. -/
def Schema.store : Schema :=
  { package := some "store"
    messages := [{ name := "store.Item"
                   fields := [{ name := "tags", tag := 1,
                                type := .map (.builtin .string) (.builtin .int32) }]
                   nestedEnums := [{ name := "store.Item.State", values := [⟨"NEW", 0⟩] }] }] }

/-- A store has two codecs, for items and for their labels. -/
theorem FileDeclaration.one_codec_each_store : (∀ name ∈ store.names, Undotted name) ∧
    store.build = .ok Schema.store ∧ Schema.store.violations = [] ∧
      Schema.store.fullNames.Nodup ∧
      (CodecSet.ofSchema Schema.store).codecs.entries.length = 2 := by
  have undotted : ∀ name ∈ store.names, Undotted name := by
    unfold Undotted
    decide
  have built : store.build = .ok Schema.store := rfl
  have lawful : Schema.store.violations = [] := by decide
  obtain ⟨distinct, -, -, -, count⟩ := one_codec_each undotted built lawful
  exact ⟨undotted, built, lawful, distinct, count⟩

/-- A message that has the full name of the entries of a map. -/
def FileDeclaration.shadowing : FileDeclaration :=
  { messages := [{ name := "M"
                   fields := [{ name := "tags", number := 1, type := "map<string, int32>" }] },
      { name := "M.TagsEntry"
        fields := [{ name := "key", number := 1, type := "string" },
          { name := "value", number := 2, type := "string" }] }] }

/-- A schema in which the entries of a map have the full name of a message. -/
def Schema.shadowing : Schema :=
  { messages := [{ name := "M"
                   fields := [{ name := "tags", tag := 1,
                                type := .map (.builtin .string) (.builtin .int32) }] },
      { name := "M.TagsEntry"
        fields := [{ name := "key", tag := 1, type := .builtin .string },
          { name := "value", tag := 2, type := .builtin .string }] }] }

/-- A dot in a declared name breaks no rule, and the codec of that message takes the place of the
one for the entries of a map. -/
theorem FileDeclaration.shadowed_entries : shadowing.build = .ok Schema.shadowing ∧
    Schema.shadowing.violations = [] ∧ ¬Schema.shadowing.fullNames.Nodup ∧
    (CodecSet.ofSchema Schema.shadowing).get? (join "M" (entryName "tags")) ≠
      some (.ofType (.ofSchema Schema.shadowing) (entryMessage (join "M" (entryName "tags"))
        (.builtin .string) (.builtin .int32))) := by
  refine ⟨rfl, by decide, by decide, fun same => ?_⟩
  have forms := congrArg (Option.map fun codec => codec.fields.map (·.form)) same
  exact absurd forms (by decide)

end Protobuf
