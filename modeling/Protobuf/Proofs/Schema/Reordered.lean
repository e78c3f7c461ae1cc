import Mathlib.Data.Multiset.Defs
import Protobuf.Proofs.Schema.References
import Protobuf.Proofs.Schema.Without

/-! # Types declared in another order

If no two types have one full name, nothing depends on the order in which they are declared: not
what a token stands for, not whether the types can be built, and not whether the schema is valid.
The schemas that are built have the same types by full name, apart from what is nested in them.
Main statements: `FileDeclaration.Reordered.exists_build` and
`Schema.Reordered.violations_eq_nil_iff`. -/

namespace Protobuf

open Relation

/-! ## Declarations -/

/-- Messages are declared in another order, at any depth, and so are the enums in each of them. -/
inductive MessageDeclaration.Reordered : List MessageDeclaration → List MessageDeclaration → Prop
  | nil : Reordered [] []
  | cons {name : String} {fields : List FieldDeclaration} {oneofs : List String}
    {reserved : ReservedDeclaration} {messages messages' rest rest' : List MessageDeclaration}
    {enums enums' : List EnumDeclaration} (inside : Reordered messages messages')
    (kinds : enums.Perm enums') (after : Reordered rest rest') :
    Reordered (⟨name, fields, messages, enums, oneofs, reserved⟩ :: rest)
      (⟨name, fields, messages', enums', oneofs, reserved⟩ :: rest')
  | swap (first second : MessageDeclaration) (rest : List MessageDeclaration) :
    Reordered (first :: second :: rest) (second :: first :: rest)
  | trans {first second third : List MessageDeclaration} (left : Reordered first second)
    (right : Reordered second third) : Reordered first third

/-- A file declares its types in another order, in any of its scopes. -/
structure FileDeclaration.Reordered (file other : FileDeclaration) : Prop where
  package : other.package = file.package
  messages : MessageDeclaration.Reordered file.messages other.messages
  enums : file.enums.Perm other.enums

theorem MessageDeclaration.Reordered.symm {messages others : List MessageDeclaration}
    (reordered : Reordered messages others) : Reordered others messages := by
  induction reordered with
  | nil => exact .nil
  | cons inside kinds after ihInside ihAfter => exact .cons ihInside kinds.symm ihAfter
  | swap first second rest => exact .swap second first rest
  | trans left right ihLeft ihRight => exact ihRight.trans ihLeft

theorem FileDeclaration.Reordered.symm {file other : FileDeclaration}
    (reordered : file.Reordered other) : other.Reordered file :=
  ⟨reordered.package.symm, reordered.messages.symm, reordered.enums.symm⟩

/-! ## Names of declared types -/

/-- The full names of the messages and enums declared in a file. -/
def FileDeclaration.fullNames (file : FileDeclaration) : List String :=
  file.kinds.map (·.1)

theorem MessageDeclaration.Reordered.perm_kinds {messages others : List MessageDeclaration}
    (reordered : Reordered messages others) (scope : String) :
    (allKinds scope messages).Perm (allKinds scope others) := by
  induction reordered generalizing scope with
  | nil => exact .refl _
  | cons inside kinds after ihInside ihAfter =>
    exact (((ihInside _).append (kinds.map _)).append_right _).append (ihAfter scope)
  | swap first second rest => exact List.perm_append_comm_assoc ..
  | trans left right ihLeft ihRight => exact (ihLeft scope).trans (ihRight scope)

namespace FileDeclaration.Reordered

variable {file other : FileDeclaration}

theorem scope_eq (reordered : file.Reordered other) : other.scope = file.scope := by
  rw [scope, reordered.package, scope]

theorem perm_kinds (reordered : file.Reordered other) : file.kinds.Perm other.kinds := by
  rw [kinds, kinds, reordered.scope_eq]
  exact (reordered.messages.perm_kinds _).append (reordered.enums.map _)

theorem perm_fullNames (reordered : file.Reordered other) : file.fullNames.Perm other.fullNames :=
  reordered.perm_kinds.map _

/-- Types with distinct full names are known alike in whatever order they are declared. -/
theorem knownTypes_eq (reordered : file.Reordered other) (distinct : file.fullNames.Nodup) :
    other.knownTypes = file.knownTypes := by
  rw [FileDeclaration.knownTypes_eq, FileDeclaration.knownTypes_eq]
  exact (Table.foldl_insert_perm _ _ reordered.perm_kinds distinct _).symm

end FileDeclaration.Reordered

/-! ## Built types -/

/-- Messages stand in another order, at any depth, and so do the enums in each of them. -/
inductive MessageType.Reordered : List MessageType → List MessageType → Prop
  | nil : Reordered [] []
  | cons {name : String} {fields : List Field} {oneofs : OneofTable} {reserved : Reserved}
    {nested nested' rest rest' : List MessageType} {enums enums' : List EnumType}
    (inside : Reordered nested nested') (kinds : enums.Perm enums')
    (after : Reordered rest rest') :
    Reordered (⟨name, fields, enums, nested, oneofs, reserved⟩ :: rest)
      (⟨name, fields, enums', nested', oneofs, reserved⟩ :: rest')
  | swap (first second : MessageType) (rest : List MessageType) :
    Reordered (first :: second :: rest) (second :: first :: rest)
  | trans {first second third : List MessageType} (left : Reordered first second)
    (right : Reordered second third) : Reordered first third

/-- A schema has its types in another order, in any of its scopes. -/
structure Schema.Reordered (schema other : Schema) : Prop where
  package : other.package = schema.package
  messages : MessageType.Reordered schema.messages other.messages
  enums : schema.enums.Perm other.enums

theorem MessageType.Reordered.symm {types others : List MessageType}
    (reordered : Reordered types others) : Reordered others types := by
  induction reordered with
  | nil => exact .nil
  | cons inside kinds after ihInside ihAfter => exact .cons ihInside kinds.symm ihAfter
  | swap first second rest => exact .swap second first rest
  | trans left right ihLeft ihRight => exact ihRight.trans ihLeft

theorem Schema.Reordered.symm {schema other : Schema} (reordered : schema.Reordered other) :
    other.Reordered schema :=
  ⟨reordered.package.symm, reordered.messages.symm, reordered.enums.symm⟩

/-- Messages that can be built can be built in another order, which is that of what is built. -/
theorem MessageDeclaration.Reordered.exists_buildAll {known : KnownTypes}
    {messages others : List MessageDeclaration} (reordered : Reordered messages others)
    {scope : String} {types : List MessageType}
    (built : buildAll known scope messages = .ok types) :
    ∃ types', buildAll known scope others = .ok types' ∧ MessageType.Reordered types types' := by
  induction reordered generalizing scope types with
  | nil =>
    cases built
    exact ⟨[], rfl, .nil⟩
  | cons inside kinds after ihInside ihAfter =>
    simp only [buildAll, build, bind_eq_ok_iff] at built ⊢
    obtain ⟨_, ⟨fields, each, nested, inner, ⟨⟩⟩, others, later, ⟨⟩⟩ := built
    obtain ⟨nested', inner', reorderedInner⟩ := ihInside inner
    obtain ⟨others', later', reorderedLater⟩ := ihAfter later
    exact ⟨_, ⟨_, ⟨fields, each, nested', inner', rfl⟩, others', later', rfl⟩,
      .cons reorderedInner (kinds.map _) reorderedLater⟩
  | swap first second rest =>
    -- Neither of two messages needs the other one to be built first: all names are known before.
    simp only [buildAll, bind_eq_ok_iff] at built ⊢
    obtain ⟨type, one, _, ⟨type', two, types, others, ⟨⟩⟩, ⟨⟩⟩ := built
    exact ⟨_, ⟨type', two, _, ⟨type, one, types, others, rfl⟩, rfl⟩, .swap type type' types⟩
  | trans left right ihLeft ihRight =>
    obtain ⟨middle, built', reordered⟩ := ihLeft built
    obtain ⟨types', built'', reordered'⟩ := ihRight built'
    exact ⟨types', built'', reordered.trans reordered'⟩

/-- A file from which a schema can be built gives, with its types declared in another order, the
schema with its types in another order. -/
theorem FileDeclaration.Reordered.exists_build {file other : FileDeclaration}
    (reordered : file.Reordered other) (distinct : file.fullNames.Nodup) {schema : Schema}
    (built : file.build = .ok schema) :
    ∃ schema', other.build = .ok schema' ∧ schema.Reordered schema' := by
  simp only [build, bind_eq_ok_iff, reordered.knownTypes_eq distinct, reordered.scope_eq] at built ⊢
  obtain ⟨types, inner, ⟨⟩⟩ := built
  obtain ⟨types', inner', reorderedTypes⟩ := reordered.messages.exists_buildAll inner
  exact ⟨_, ⟨types', inner', rfl⟩, reordered.package, reorderedTypes, reordered.enums.map _⟩

/-- Neither two messages nor two enums of a schema have one name. -/
structure Schema.Apart (schema : Schema) : Prop where
  messages : (schema.allMessages.map (·.name)).Nodup
  enums : (schema.allEnums.map (·.name)).Nodup

theorem FileDeclaration.apart_of_build {file : FileDeclaration} {schema : Schema}
    (built : file.build = .ok schema) (distinct : file.fullNames.Nodup) : schema.Apart := by
  have names := ((perm_kinds_of_build built).map Prod.fst).nodup_iff.2 distinct
  simp only [TypeKind.ofTypes, List.map_append, List.map_map, Function.comp_def] at names
  exact ⟨(List.nodup_append.1 names).1, (List.nodup_append.1 names).2.1⟩

/-! ## Types by full name -/

namespace MessageType

/-- A message without the types in it. -/
def outline (type : MessageType) : MessageType :=
  { type with nestedEnums := [], nestedMessages := [] }

/-- All that the rules for a message are about: the message without the types in it, and the names
declared in it, which are in no order. -/
def profile (type : MessageType) : MessageType × Multiset String :=
  (type.outline, ↑(Validate.declaredNames type))

namespace Reordered

variable {types others : List MessageType}

theorem perm_names (reordered : Reordered types others) :
    (types.map (·.simpleName)).Perm (others.map (·.simpleName)) := by
  induction reordered with
  | nil => exact .refl _
  | cons inside kinds after ihInside ihAfter => exact ihAfter.cons _
  | swap first second rest => exact .swap ..
  | trans left right ihLeft ihRight => exact ihLeft.trans ihRight

/-- In another order the messages are the same, apart from the order of the types in them. -/
theorem perm_profiles (reordered : Reordered types others) :
    ((allNested types).map profile).Perm ((allNested others).map profile) := by
  induction reordered with
  | nil => exact .refl _
  | @cons name fields oneofs reserved nested nested' rest rest' enums enums' inside kinds after
      ihInside ihAfter =>
    -- The names declared in a message are permuted with the types in it, so they are compared
    -- without their order.
    have same : profile ⟨name, fields, enums, nested, oneofs, reserved⟩ =
        profile ⟨name, fields, enums', nested', oneofs, reserved⟩ :=
      congrArg (Prod.mk _) (Multiset.coe_eq_coe.2
        ((inside.perm_names.append (kinds.map _)).append_right _))
    rw [allNested, allNested, List.map_append, List.map_append, withNested, withNested,
      List.map_cons, List.map_cons, same]
    exact (ihInside.cons _).append ihAfter
  | swap first second rest =>
    simp only [allNested, List.map_append]
    exact List.perm_append_comm_assoc ..
  | trans left right ihLeft ihRight => exact ihLeft.trans ihRight

theorem perm_enums (reordered : Reordered types others) :
    (allEnumsWithin types).Perm (allEnumsWithin others) := by
  induction reordered with
  | nil => exact .refl _
  | cons inside kinds after ihInside ihAfter => exact (ihInside.append kinds).append ihAfter
  | swap first second rest => exact List.perm_append_comm_assoc ..
  | trans left right ihLeft ihRight => exact ihLeft.trans ihRight

end Reordered

/-- A message with the profile of a well-formed one is well formed. -/
theorem WellFormed.of_profile {registry : Registry} {type other : MessageType}
    (formed : type.WellFormed registry) (same : type.profile = other.profile) :
    other.WellFormed registry := by
  obtain ⟨outlines, names⟩ := Prod.mk.inj same
  have declared := (Multiset.coe_eq_coe.1 names).nodup_iff.1 formed.declared
  cases type
  cases other
  cases outlines
  exact { formed with declared := declared }

end MessageType

namespace Registry

/-- The types by full name, messages without the types in them. -/
def outline (registry : Registry) : Registry :=
  ⟨registry.messages.map MessageType.outline, registry.enums⟩

theorem message?_outline (registry : Registry) (name : String) :
    registry.outline.message? name = (registry.message? name).map MessageType.outline :=
  Table.get?_map ..

theorem outline_ofTypes (messages : List MessageType) (enums : List EnumType) :
    (ofTypes messages enums).outline = ofTypes (messages.map MessageType.outline) enums := by
  refine congrArg (Registry.mk · _) (Table.ext fun name => ?_)
  have found (messages : List MessageType) := Table.get?_foldl_insertNew MessageType.name
    (fun type => type) messages .empty name
  rw [Table.get?_map, ofTypes, found, found, List.find?_map]
  simp only [Table.get?_empty, Option.none_or, Option.map_id', Function.comp_def]
  rfl

/-- Registries with the same outline know the same types. -/
theorem alike_of_outline {registry other : Registry} (same : registry.outline = other.outline) :
    registry.Alike other where
  enum name := congrArg (·.enum? name) same.symm
  message name := by
    have found := congrArg (fun registry => (registry.message? name).isSome) same
    simpa [message?_outline] using found.symm

theorem embeds_outline {registry : Registry} {name target : String} :
    registry.outline.Embeds name target ↔ registry.Embeds name target := by
  simp only [Embeds, message?_outline, Option.isSome_map, Option.map_eq_some_iff]
  constructor
  · rintro ⟨_, ⟨type, found, rfl⟩, rest⟩
    exact ⟨type, found, rest⟩
  · rintro ⟨type, found, rest⟩
    exact ⟨_, ⟨type, found, rfl⟩, rest⟩

end Registry

namespace Schema.Reordered

variable {schema other : Schema}

theorem perm_enums (reordered : schema.Reordered other) : schema.allEnums.Perm other.allEnums :=
  reordered.messages.perm_enums.append reordered.enums

theorem perm_outlines (reordered : schema.Reordered other) :
    (schema.allMessages.map MessageType.outline).Perm
      (other.allMessages.map MessageType.outline) := by
  have outlines := reordered.messages.perm_profiles.map Prod.fst
  rwa [List.map_map, List.map_map] at outlines

/-- The names of a schema are apart in every order. -/
theorem apart (reordered : schema.Reordered other) (apart : schema.Apart) : other.Apart where
  messages := by
    have names := reordered.perm_outlines.map MessageType.name
    rw [List.map_map, List.map_map] at names
    exact names.nodup_iff.1 apart.messages
  enums := (reordered.perm_enums.map _).nodup_iff.1 apart.enums

/-- Types with distinct names are found alike in whatever order they stand. -/
theorem outline_eq (reordered : schema.Reordered other) (apart : schema.Apart) :
    (Registry.ofSchema schema).outline = (Registry.ofSchema other).outline := by
  rw [Registry.ofSchema, Registry.ofSchema, Registry.outline_ofTypes, Registry.outline_ofTypes]
  have names : ((schema.allMessages.map MessageType.outline).map MessageType.name).Nodup := by
    rw [List.map_map]
    exact apart.messages
  have messages := Table.foldl_insertNew_perm MessageType.name (fun type => type)
    reordered.perm_outlines names .empty
  have enums := Table.foldl_insertNew_perm EnumType.name (fun type => type) reordered.perm_enums
    apart.enums .empty
  exact congrArg₂ Registry.mk messages enums

/-- A message of a schema in another order has the profile of one of the schema. -/
theorem exists_profile (reordered : schema.Reordered other) {type : MessageType}
    (held : type ∈ other.allMessages) :
    ∃ before ∈ schema.allMessages, before.profile = type.profile :=
  List.mem_map.1 (reordered.messages.perm_profiles.mem_iff.2 (List.mem_map_of_mem held))

/-- A schema with its types in another order keeps the rules that it keeps. -/
theorem wellFormed (reordered : schema.Reordered other) (apart : schema.Apart)
    (formed : schema.WellFormed) : other.WellFormed := by
  have same := reordered.outline_eq apart
  have alike := Registry.alike_of_outline same
  exact {
    names := (reordered.messages.perm_names.append (reordered.enums.map _)).nodup_iff.1 formed.names
    messages := by
      intro type held
      obtain ⟨outer, outermost, inside⟩ := mem_types_iff.1 held
      obtain ⟨before, among, profile⟩ := reordered.exists_profile outermost
      rcases inside with rfl | entry
      · have formedBefore := formed.messages before (mem_types_iff.2 ⟨before, among, .inl rfl⟩)
        exact (formedBefore.alike alike).of_profile profile
      · have entries : outer.entryMessages = before.entryMessages :=
          congrArg (·.1.entryMessages) profile.symm
        rw [entries] at entry
        exact (formed.messages type (mem_types_iff.2 ⟨before, among, .inr entry⟩)).alike alike
    enums := fun type held => formed.enums type (reordered.perm_enums.mem_iff.2 held)
    acyclic := by
      intro name back
      refine formed.acyclic name (TransGen.mono (fun outer inner embeds => ?_) _ _ back)
      rw [← Registry.embeds_outline, same]
      exact Registry.embeds_outline.2 embeds }

/-- A schema whose types have distinct names is valid in every order or in none. -/
theorem violations_eq_nil_iff (reordered : schema.Reordered other) (apart : schema.Apart) :
    schema.violations = [] ↔ other.violations = [] := by
  rw [Schema.violations_eq_nil_iff, Schema.violations_eq_nil_iff]
  exact ⟨reordered.wellFormed apart, reordered.symm.wellFormed (reordered.apart apart)⟩

end Schema.Reordered

end Protobuf
