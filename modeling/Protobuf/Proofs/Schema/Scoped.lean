import Protobuf.Proofs.Name
import Protobuf.Proofs.Schema.Accepted
import Protobuf.Proofs.Success
import Protobuf.Schema.Build

/-! # Names of declared types

The full name of a declared type is its declared name joined to the scope it stands in. If declared
names are single parts, such full names are as distinct as the names in each scope are, and those
are distinct in a schema without violations. Main statement: `Schema.nodup_fullNames`.

## Implementation notes

The names in a scope come in families, one for each type declared there: the name of that type and
all names inside it. Families of different names have nothing in common, so that one lemma serves
the outermost scope and the scopes inside messages alike. -/

namespace Protobuf

open Name

/-- Every type in a message bears the name of the scope it stands in. -/
inductive MessageType.Scoped : String → MessageType → Prop
  | intro {scope : String} {type : MessageType} (named : type.name = join scope type.simpleName)
    (enums : ∀ kind ∈ type.nestedEnums, kind.name = join type.name kind.simpleName)
    (nested : ∀ inner ∈ type.nestedMessages, Scoped type.name inner) : Scoped scope type

/-- Families of different names of one part have no name in common. -/
theorem nodup_families {scope : String} {families : List (String × List String)}
    (distinct : (families.map (·.1)).Nodup) (undotted : ∀ family ∈ families, Undotted family.1)
    (each : ∀ family ∈ families, family.2.Nodup)
    (inside : ∀ family ∈ families, ∀ name ∈ family.2, Within (join scope family.1) name) :
    (families.flatMap (·.2)).Nodup := by
  refine List.nodup_flatMap.2 ⟨each, ?_⟩
  have apart : families.Pairwise (·.1 ≠ ·.1) := List.pairwise_map.1 distinct
  refine apart.imp_of_mem fun {family other} held held' differ => ?_
  intro name here there
  exact differ (eq_of_within (undotted _ held) (undotted _ held') (inside _ held name here)
    (inside _ held' name there))

/-- The name of an entry message is a single part. -/
theorem undotted_entryName {name : String} (valid : isIdentifier name) :
    Undotted (entryName name) := by
  intro dotted
  rw [entryName, String.toList_append, List.mem_append] at dotted
  rcases dotted with inPascal | inEntry
  · exact undotted_pascal valid inPascal
  · exact absurd inEntry (by decide)

namespace MessageType

/-- The names of a message and of everything inside it, entry messages included. -/
def namesWithin (type : MessageType) : List String :=
  (type.withNested.flatMap fun inner => inner :: inner.entryMessages).map (·.name) ++
    type.enumsWithin.map (·.name)

/-- The families in the scope of a message: those of its messages, its enums and its entry
messages. -/
def families (type : MessageType) : List (String × List String) :=
  type.nestedMessages.map (fun inner => (inner.simpleName, inner.namesWithin)) ++
    type.nestedEnums.map (fun kind => (kind.simpleName, [kind.name])) ++
    (type.fields.filter (·.isMap)).map fun field =>
      (entryName field.name, [join type.name (entryName field.name)])

theorem map_families (type : MessageType) :
    type.families.map (·.1) = Validate.declaredNames type := by
  simp [families, Validate.declaredNames, Function.comp_def]

theorem flatMap_families (type : MessageType) : type.families.flatMap (·.2) =
    type.nestedMessages.flatMap (·.namesWithin) ++ type.nestedEnums.map (·.name) ++
      (type.fields.filter (·.isMap)).map fun field => join type.name (entryName field.name) := by
  rw [List.map_eq_flatMap, List.map_eq_flatMap]
  simp only [families, List.flatMap_append, List.flatMap_map]

/-- The names within messages are those within each of them. -/
theorem perm_namesWithin (types : List MessageType) :
    ((allNested types).flatMap fun inner => inner :: inner.entryMessages).map (·.name) ++
      (allEnumsWithin types).map (·.name) |>.Perm (types.flatMap (·.namesWithin)) := by
  induction types with
  | nil => exact .refl _
  | cons type rest ih =>
    refine List.perm_iff_count.2 fun name => ?_
    have later := ih.count_eq name
    simp only [allNested, allEnumsWithin, List.flatMap_append, List.map_append, List.flatMap_cons,
      List.count_append, namesWithin] at later ⊢
    omega

/-- A well-formed map field makes one entry message, and another field makes none. -/
theorem entryMessages_of_field {registry : Registry} {reserved : Reserved} {field : Field}
    (formed : field.WellFormed registry reserved) (scope : String) :
    (field.type.entryMessages scope field.name).map (·.name) =
      if field.isMap then [join scope (entryName field.name)] else [] := by
  cases kind : field.type with
  | map key value =>
    rw [← kind, formed.entryMessages_of_map kind, Field.isMap, kind]
    rfl
  | _ => simp [Field.isMap, kind, FieldType.isMap, FieldType.entryMessages]

/-- The fields of a well-formed message make one entry message for each map. -/
theorem WellFormed.map_entryMessages {registry : Registry} {type : MessageType}
    (formed : type.WellFormed registry) : type.entryMessages.map (·.name) =
      (type.fields.filter (·.isMap)).map fun field => join type.name (entryName field.name) := by
  have fields := formed.fields
  unfold entryMessages
  generalize type.fields = items at fields
  induction items with
  | nil => rfl
  | cons field rest ih =>
    obtain ⟨here, after⟩ := List.forall_mem_cons.1 fields
    rw [List.flatMap_cons, List.map_append, entryMessages_of_field here, ih after,
      List.filter_cons]
    split <;> rfl

/-- The names within a message are its own and those of the families in it. -/
theorem WellFormed.perm_namesWithin {registry : Registry} {type : MessageType}
    (formed : type.WellFormed registry) :
    type.namesWithin.Perm (type.name :: type.families.flatMap (·.2)) := by
  have entries := formed.map_entryMessages
  obtain ⟨name, fields, enums, nested, groups, reserved⟩ := type
  refine List.perm_iff_count.2 fun other => ?_
  have inner := (MessageType.perm_namesWithin nested).count_eq other
  rw [flatMap_families, namesWithin]
  simp only [withNested, enumsWithin, List.flatMap_cons, List.map_cons, List.map_append,
    List.cons_append, List.count_cons, List.count_append, entries] at inner ⊢
  omega

theorem Scoped.name_eq {scope : String} {type : MessageType} (placed : type.Scoped scope) :
    type.name = join scope type.simpleName := by
  cases placed with
  | intro named => exact named

theorem mem_withNested_self (type : MessageType) : type ∈ type.withNested := by
  cases type
  exact List.mem_cons_self

theorem allNested_eq_flatMap (types : List MessageType) :
    allNested types = types.flatMap (·.withNested) := by
  induction types with
  | nil => rfl
  | cons type rest ih => rw [allNested, ih, List.flatMap_cons]

theorem allEnumsWithin_eq_flatMap (types : List MessageType) :
    allEnumsWithin types = types.flatMap (·.enumsWithin) := by
  induction types with
  | nil => rfl
  | cons type rest ih => rw [allEnumsWithin, ih, List.flatMap_cons]

/-- What is nested in one of several messages is nested in these. -/
theorem mem_allNested_of_mem {types : List MessageType} {outer inner : MessageType}
    (held : outer ∈ types) (inside : inner ∈ outer.withNested) : inner ∈ allNested types := by
  rw [allNested_eq_flatMap]
  exact List.mem_flatMap_of_mem held inside

/-- A name whose last part is an identifier is no root. -/
theorem WellFormed.name_ne {registry : Registry} {type : MessageType}
    (formed : type.WellFormed registry) : type.name ≠ "" := by
  intro root
  have valid := formed.identifier
  rw [simpleName, root] at valid
  exact absurd valid (by decide)

/-- The families in a well-formed message have names of one part. -/
theorem WellFormed.undotted_families {registry : Registry} {type : MessageType}
    (formed : type.WellFormed registry) : ∀ family ∈ type.families, Undotted family.1 := by
  intro family held
  simp only [families, List.mem_append, List.mem_map, List.mem_filter] at held
  obtain (⟨inner, -, rfl⟩ | ⟨kind, -, rfl⟩) | ⟨field, ⟨declared, -⟩, rfl⟩ := held
  · exact undotted_simple _
  · exact undotted_simple _
  · exact undotted_entryName (formed.fields field declared).identifier

/-- Well-formed messages that bear the names of their scopes have distinct names within, all of
them inside the message. -/
theorem Scoped.nodup_namesWithin {registry : Registry} {scope : String} {type : MessageType}
    (placed : type.Scoped scope) (formed : ∀ inner ∈ type.withNested, inner.WellFormed registry) :
    type.namesWithin.Nodup ∧ ∀ name ∈ type.namesWithin, Within type.name name := by
  induction placed with
  | @intro scope type named enums nested ih =>
    have own : type.WellFormed registry := formed type (mem_withNested_self type)
    have inner : ∀ inner ∈ type.nestedMessages, ∀ deep ∈ inner.withNested,
        deep.WellFormed registry := by
      intro inner held deep inside
      refine formed deep ?_
      cases type
      exact List.mem_cons_of_mem _ (mem_allNested_of_mem held inside)
    have each : ∀ family ∈ type.families, family.2.Nodup ∧
        ∀ name ∈ family.2, Within (join type.name family.1) name := by
      intro family held
      simp only [families, List.mem_append, List.mem_map] at held
      obtain (⟨message, held, rfl⟩ | ⟨kind, held, rfl⟩) | ⟨field, -, rfl⟩ := held
      · have deeper := ih message held (inner message held)
        rwa [(nested message held).name_eq] at deeper
      · refine ⟨List.nodup_singleton _, List.forall_mem_singleton.2 ?_⟩
        exact (enums kind held) ▸ within_refl _
      · exact ⟨List.nodup_singleton _, List.forall_mem_singleton.2 (within_refl _)⟩
    have distinct : (type.families.flatMap (·.2)).Nodup :=
      nodup_families (type.map_families ▸ own.declared) own.undotted_families
        (fun family held => (each family held).1) fun family held => (each family held).2
    have perm := own.perm_namesWithin
    refine ⟨perm.nodup_iff.2 (List.nodup_cons.2 ⟨?_, distinct⟩), fun name held => ?_⟩
    · intro held
      obtain ⟨family, among, held⟩ := List.mem_flatMap.1 held
      exact ((each family among).2 _ held).ne own.name_ne rfl
    · rcases List.mem_cons.1 (perm.mem_iff.1 held) with rfl | deeper
      · exact within_refl _
      · obtain ⟨family, among, held⟩ := List.mem_flatMap.1 deeper
        exact (within_join own.name_ne _).trans ((each family among).2 _ held)

end MessageType

namespace Schema

variable {schema : Schema}

/-- A schema without violations whose types bear the names of their scopes has no full name
twice. -/
theorem nodup_fullNames (lawful : schema.violations = [])
    (messages : ∀ type ∈ schema.messages, type.Scoped schema.scope)
    (enums : ∀ kind ∈ schema.enums, kind.name = join schema.scope kind.simpleName) :
    schema.fullNames.Nodup := by
  have formed := violations_eq_nil_iff.1 lawful
  let families := schema.messages.map (fun type => (type.simpleName, type.namesWithin)) ++
    schema.enums.map fun kind => (kind.simpleName, [kind.name])
  have each : ∀ family ∈ families, Undotted family.1 ∧ family.2.Nodup ∧
      ∀ name ∈ family.2, Within (join schema.scope family.1) name := by
    intro family held
    simp only [families, List.mem_append, List.mem_map] at held
    obtain ⟨type, held, rfl⟩ | ⟨kind, held, rfl⟩ := held
    · refine ⟨undotted_simple _, ?_⟩
      have placed := messages type held
      have within := placed.nodup_namesWithin fun inner inside => formed.messages inner
        (mem_types_iff.2 ⟨inner, MessageType.mem_allNested_of_mem held inside, .inl rfl⟩)
      rwa [placed.name_eq] at within
    · refine ⟨undotted_simple _, List.nodup_singleton _, List.forall_mem_singleton.2 ?_⟩
      exact (enums kind held) ▸ within_refl _
  have distinct : (families.flatMap (·.2)).Nodup := by
    refine nodup_families ?_ (fun family held => (each family held).1)
      (fun family held => (each family held).2.1) fun family held => (each family held).2.2
    simpa [families, Function.comp_def] using formed.names
  have names : families.flatMap (·.2) =
      schema.messages.flatMap (·.namesWithin) ++ schema.enums.map (·.name) := by
    rw [List.map_eq_flatMap]
    simp only [families, List.flatMap_append, List.flatMap_map]
  have perm : schema.fullNames.Perm (families.flatMap (·.2)) := by
    refine List.perm_iff_count.2 fun name => ?_
    have inner := (MessageType.perm_namesWithin schema.messages).count_eq name
    simp only [names, fullNames, types, allMessages, allEnums, List.map_append,
      List.count_append] at inner ⊢
    omega
  exact perm.nodup_iff.2 distinct

end Schema

/-! ## Schemas that are built from declarations -/

mutual

/-- The names declared in a message, its own in front. -/
def MessageDeclaration.names : MessageDeclaration → List String
  | ⟨name, _, messages, enums, _, _⟩ =>
    name :: (MessageDeclaration.allNames messages ++ enums.map (·.name))

/-- The names declared in messages. -/
def MessageDeclaration.allNames : List MessageDeclaration → List String
  | [] => []
  | declaration :: rest => declaration.names ++ allNames rest

end

/-- The names of messages and enums declared in a file. -/
def FileDeclaration.names (file : FileDeclaration) : List String :=
  MessageDeclaration.allNames file.messages ++ file.enums.map (·.name)

/-- An enum declared with a name of one part bears the name of its scope. -/
theorem EnumDeclaration.name_build {declaration : EnumDeclaration}
    (undotted : Undotted declaration.name) (scope : String) :
    (declaration.build scope).name = join scope (declaration.build scope).simpleName :=
  congrArg (join scope) (simple_join undotted scope).symm

mutual

/-- A message declared with names of one part bears the name of its scope, and so do the types in
it. -/
theorem MessageDeclaration.scoped_of_build {known : KnownTypes} {scope : String} :
    ∀ {declaration : MessageDeclaration} {type : MessageType},
      declaration.build known scope = .ok type →
      (∀ name ∈ declaration.names, Undotted name) → type.Scoped scope
  | ⟨name, fields, messages, enums, groups, reserved⟩, type, built, undotted => by
    rw [names, List.forall_mem_cons, List.forall_mem_append] at undotted
    obtain ⟨own, inMessages, inEnums⟩ := undotted
    simp only [MessageDeclaration.build, bind_eq_ok_iff] at built
    obtain ⟨builtFields, -, builtMessages, inner, done⟩ := built
    cases done
    refine .intro (congrArg (join scope) (simple_join own scope).symm) ?_ ?_
    · intro kind held
      obtain ⟨declaration, declared, rfl⟩ := List.mem_map.1 held
      exact declaration.name_build (inEnums _ (List.mem_map_of_mem declared)) _
    · exact MessageDeclaration.scoped_of_buildAll inner inMessages

/-- Messages declared with names of one part bear the name of their scope, and so do the types in
them. -/
theorem MessageDeclaration.scoped_of_buildAll {known : KnownTypes} {scope : String} :
    ∀ {declarations : List MessageDeclaration} {types : List MessageType},
      buildAll known scope declarations = .ok types →
      (∀ name ∈ allNames declarations, Undotted name) → ∀ type ∈ types, type.Scoped scope
  | [], types, built, _ => by
    cases built
    exact fun type held => absurd held List.not_mem_nil
  | declaration :: rest, types, built, undotted => by
    rw [allNames, List.forall_mem_append] at undotted
    simp only [buildAll, bind_eq_ok_iff] at built
    obtain ⟨type, first, others, after, done⟩ := built
    cases done
    exact List.forall_mem_cons.2 ⟨MessageDeclaration.scoped_of_build first undotted.1,
      MessageDeclaration.scoped_of_buildAll after undotted.2⟩

end

/-- The types of a file that declares names of one part bear the names of their scopes. -/
theorem FileDeclaration.scoped_of_build {file : FileDeclaration} {schema : Schema}
    (undotted : ∀ name ∈ file.names, Undotted name) (built : file.build = .ok schema) :
    (∀ type ∈ schema.messages, type.Scoped schema.scope) ∧
      ∀ kind ∈ schema.enums, kind.name = join schema.scope kind.simpleName := by
  obtain ⟨inMessages, inEnums⟩ := List.forall_mem_append.1 undotted
  rw [FileDeclaration.build, bind_eq_ok_iff] at built
  obtain ⟨messages, inner, done⟩ := built
  cases done
  refine ⟨MessageDeclaration.scoped_of_buildAll inner inMessages, fun kind held => ?_⟩
  obtain ⟨declaration, declared, rfl⟩ := List.mem_map.1 held
  exact declaration.name_build (inEnums _ (List.mem_map_of_mem declared)) _

/-- A file that declares names of one part and builds a schema without violations gives no full
name twice. -/
theorem FileDeclaration.accepted_of_build {file : FileDeclaration} {schema : Schema}
    (undotted : ∀ name ∈ file.names, Undotted name) (built : file.build = .ok schema)
    (lawful : schema.violations = []) : schema.Accepted := by
  obtain ⟨messages, enums⟩ := file.scoped_of_build undotted built
  exact ⟨lawful, Schema.nodup_fullNames lawful messages enums⟩

end Protobuf
