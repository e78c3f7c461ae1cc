import Mathlib.Data.List.Induction
import Mathlib.Data.List.Nodup
import Mathlib.Data.List.Pairwise
import Protobuf.Emission.Enum
import Protobuf.Proofs.Emission.Identifier
import Protobuf.Proofs.Schema.Types

/-! # Emitted names are distinct

Case, packages, nesting and keywords all make one identifier of several names. Still, each
namespace of what is emitted gives out an identifier once: the module to its types and groups, a
structure to its fields, its methods and the variants of each group, and an enum to its variants and
constants. Main statement: `identifiers_distinct`.

## Implementation notes

Each namespace is a scope from which identifiers are taken one after the other, so `Claimed` is the
invariant of each fold. In a structure the fields of a group share an identifier, and the invariant
is about pairs of fields instead. -/

namespace Protobuf

/-- Without repetitions, each item is there once. -/
theorem nodup_eraseDups {α : Type} [BEq α] [LawfulBEq α] (items : List α) :
    items.eraseDups.Nodup := by
  induction length : items.length using Nat.strongRecOn generalizing items with
  | _ count ih =>
    cases items with
    | nil => exact .nil
    | cons item rest =>
      rw [List.eraseDups_cons]
      refine List.nodup_cons.2 ⟨?_, ih _ ?_ _ rfl⟩
      · simp [List.mem_eraseDups]
      · have := List.length_filter_le (fun other => !other == item) rest
        rw [List.length_cons] at length
        omega

/-- With distinct keys, each entry is found under its key. -/
theorem lookup_eq_some_of_mem {α β : Type} [BEq α] [LawfulBEq α] {entries : List (α × β)}
    (distinct : (entries.map (·.1)).Nodup) {key : α} {value : β} (held : (key, value) ∈ entries) :
    entries.lookup key = some value := by
  obtain ⟨front, back, rfl⟩ := List.append_of_mem held
  refine List.lookup_eq_some_iff.2 ⟨front, back, rfl, fun entry before => ?_⟩
  rw [List.map_append, List.map_cons, List.nodup_append] at distinct
  have apart := distinct.2.2 entry.1 (List.mem_map_of_mem before) key List.mem_cons_self
  simpa using apart.symm

namespace Emission

variable {reserved given : List String} {taken : KeySet String} {package : String}

/-! ## Types and groups -/

theorem nameTypes_concat (package : String) (fullNames : List String) (fullName : String) :
    nameTypes package (fullNames ++ [fullName]) =
      let (free, taken) := claim (nameTypes package fullNames).2 (typeIdentifier package fullName)
      ((nameTypes package fullNames).1.insert fullName free, taken) := by
  rw [nameTypes, List.foldl_append]
  rfl

/-- Types are given identifiers one after the other. -/
theorem claimed_nameTypes (package : String) {fullNames : List String}
    (distinct : fullNames.Nodup) (oneofs : List ((String × String) × String)) :
    Claimed reservedTypes
      (fullNames.map (Names.typeName ⟨package, (nameTypes package fullNames).1, oneofs⟩))
      (nameTypes package fullNames).2 := by
  induction fullNames using List.reverseRecOn with
  | nil => exact claimed_taking reservedTypes
  | append_singleton front fullName ih =>
    rw [List.nodup_append] at distinct
    have claimed := (ih distinct.1).claim (isWord_escape (String.ofList
      ((Name.splitOn '.' (localName package fullName)).flatMap Name.pascalChars)))
    have before : front.map (Names.typeName
        ⟨package, (nameTypes package (front ++ [fullName])).1, oneofs⟩) =
          front.map (Names.typeName ⟨package, (nameTypes package front).1, oneofs⟩) := by
      refine List.map_congr_left fun other held => ?_
      have apart := distinct.2.2 other held fullName List.mem_cons_self
      simp only [Names.typeName, nameTypes_concat, Table.get?_insert, if_neg apart]
    rw [List.map_append, before, List.map_singleton]
    simp only [Names.typeName, nameTypes_concat, Table.get?_insert, if_true, Option.getD_some]
    exact claimed

/-- Give a group an identifier. -/
def claimGroup (names : Names) :
    List ((String × String) × String) × KeySet String → String × String →
      List ((String × String) × String) × KeySet String
  | (named, taken), (message, group) =>
    let (free, taken) := claim taken (names.plainOneof message group)
    (named ++ [((message, group), free)], taken)

/-- Groups are given identifiers one after the other. -/
theorem claimed_claimGroups (names : Names) (claimed : Claimed reserved given taken)
    (groups : List (String × String)) :
    let result := groups.foldl (claimGroup names) ([], taken)
    result.1.map (·.1) = groups ∧ Claimed reserved (given ++ result.1.map (·.2)) result.2 := by
  induction groups using List.reverseRecOn with
  | nil => exact ⟨rfl, by simpa using claimed⟩
  | append_singleton front group ih =>
    obtain ⟨keys, claimed⟩ := ih
    rw [List.foldl_append]
    generalize front.foldl (claimGroup names) ([], taken) = result at keys claimed
    obtain ⟨named, after⟩ := result
    have next := claimed.claim (isWord_escape (names.typeName group.1 ++ Name.pascal group.2))
    rw [List.append_assoc] at next
    simp only [List.foldl_cons, List.foldl_nil, claimGroup, List.map_append, List.map_cons,
      List.map_nil]
    exact ⟨by rw [keys], next⟩

/-- The groups of messages, each with the name of its message. -/
def groupsAmong (types : List MessageType) : List (String × String) :=
  types.flatMap fun type => (groupsOf type).map fun group => (type.name, group)

theorem nodup_groupsAmong {types : List MessageType} (distinct : (types.map (·.name)).Nodup) :
    (groupsAmong types).Nodup := by
  refine List.pairwise_flatMap.2 ⟨fun type _ => ?_, ?_⟩
  · exact (nodup_eraseDups _).map fun group other same => (Prod.mk.inj same).2
  · refine (List.pairwise_map.1 distinct).imp fun apart pair held other held' same => ?_
    obtain ⟨group, -, rfl⟩ := List.mem_map.1 held
    obtain ⟨group', -, rfl⟩ := List.mem_map.1 held'
    exact apart (Prod.mk.inj same).1

theorem Names.of_eq (registry : Registry) (package : String) :
    Names.of registry package =
      let (types, taken) := nameTypes package (registry.messages.keys ++ registry.enums.keys)
      ⟨package, types, ((groupsAmong registry.messages.values).foldl
        (claimGroup ⟨package, types, []⟩) ([], taken)).1⟩ := rfl

/-- The types and groups of a registry have identifiers that are taken from the scope of the module
one after the other. -/
theorem exists_claimed_of_registry (registry : Registry) (package : String)
    (types : (registry.messages.keys ++ registry.enums.keys).Nodup)
    (groups : (groupsAmong registry.messages.values).Nodup) :
    ∃ taken, Claimed reservedTypes
      ((registry.messages.keys ++ registry.enums.keys).map (Names.of registry package).typeName ++
        (groupsAmong registry.messages.values).map fun group =>
          (Names.of registry package).oneofName group.1 group.2) taken := by
  have typed := claimed_nameTypes package types (Names.of registry package).oneofs
  rw [Names.of_eq] at typed ⊢
  generalize nameTypes package (registry.messages.keys ++ registry.enums.keys) = start
    at typed ⊢
  obtain ⟨table, taken⟩ := start
  obtain ⟨keys, claimed⟩ :=
    claimed_claimGroups ⟨package, table, []⟩ typed (groupsAmong registry.messages.values)
  simp only at keys claimed ⊢
  generalize (groupsAmong registry.messages.values).foldl (claimGroup ⟨package, table, []⟩)
    ([], taken) = result at keys claimed ⊢
  refine ⟨result.2, ?_⟩
  have each : ∀ entry ∈ result.1,
      Names.oneofName ⟨package, table, result.1⟩ entry.1.1 entry.1.2 = entry.2 := by
    intro entry held
    have found := lookup_eq_some_of_mem (keys ▸ groups) held
    simp only [Names.oneofName, found, Option.getD_some]
  have named : (groupsAmong registry.messages.values).map (fun group =>
      Names.oneofName ⟨package, table, result.1⟩ group.1 group.2) = result.1.map (·.2) := by
    rw [← keys, List.map_map]
    exact List.map_congr_left each
  rw [named]
  exact claimed

/-- The identifiers that a module gives to the messages, the enums and the groups of a schema. -/
def moduleIdentifiers (schema : Schema) (names : Names) : List String :=
  (schema.allMessages.map (·.name) ++ schema.allEnums.map (·.name)).map names.typeName ++
    (groupsAmong schema.allMessages).map fun group => names.oneofName group.1 group.2

/-- With distinct full names, what a module gives out was taken from one scope. -/
theorem exists_claimed_moduleIdentifiers {schema : Schema} (package : String)
    (named : (schema.allMessages.map (·.name) ++ schema.allEnums.map (·.name)).Nodup) :
    ∃ given taken, Claimed reservedTypes given taken ∧
      given.Perm (moduleIdentifiers schema (Names.of (.ofSchema schema) package)) := by
  obtain ⟨messages, enums, -⟩ := List.nodup_append.1 named
  have messages_perm := Table.perm_entries_foldl_insertNew MessageType.name messages
  have enums_perm := Table.perm_entries_foldl_insertNew EnumType.name enums
  have values : (Registry.ofSchema schema).messages.values.Perm schema.allMessages := by
    have values := messages_perm.map Prod.snd
    rwa [List.map_map, Function.comp_def, List.map_id'] at values
  have keys : ((Registry.ofSchema schema).messages.keys ++
      (Registry.ofSchema schema).enums.keys).Perm
        (schema.allMessages.map (·.name) ++ schema.allEnums.map (·.name)) := by
    have keys := (messages_perm.map Prod.fst).append (enums_perm.map Prod.fst)
    rwa [List.map_map, List.map_map] at keys
  have groups : (groupsAmong (Registry.ofSchema schema).messages.values).Perm
      (groupsAmong schema.allMessages) :=
    values.flatMap_right _
  obtain ⟨taken, claimed⟩ := exists_claimed_of_registry (.ofSchema schema) package
    (keys.nodup_iff.2 named) (groups.nodup_iff.2 (nodup_groupsAmong messages))
  exact ⟨_, taken, claimed, (keys.map _).append (groups.map _)⟩

/-! ## Enums -/

/-- The identifier of a variant or a constant. -/
def EnumItem.identifier : EnumItem → String
  | .variant identifier _ => identifier
  | .alias identifier _ => identifier

/-- The values of an enum are given identifiers one after the other. -/
theorem exists_claimed_enumItems (claimed : Claimed reserved given taken)
    (variants : List (Int32 × String)) (values : List EnumValue) :
    ∃ after, Claimed reserved
      (given ++ (enumItems taken variants values).map (·.identifier)) after := by
  induction values generalizing given taken variants with
  | nil => exact ⟨taken, by simpa [enumItems] using claimed⟩
  | cons value rest ih =>
    unfold enumItems
    split
    · obtain ⟨after, later⟩ :=
        ih (claimed.claim (isWord_escape (Name.upper (Name.snake value.name)))) variants
      rw [List.append_assoc] at later
      exact ⟨after, later⟩
    · obtain ⟨after, later⟩ := ih (claimed.claim (isWord_escape (Name.pascal value.name)))
        ((value.number, (claim taken (variantIdentifier value.name)).1) :: variants)
      rw [List.append_assoc] at later
      exact ⟨after, later⟩

/-! ## Structures -/

/-- The identifiers of a field are words that the structure does not use itself: a variant where the
field is in a group, and a getter where it has a default of its own. -/
structure Member.Sound (field : Field) (member : Member) : Prop where
  word : IsWord member.identifier
  own : member.identifier ≠ "unknown_fields"
  variant : ∀ group, field.oneof = some group →
    ∃ variant, member.variant = some variant ∧ IsWord variant
  getter : field.oneof = none → field.default.isSome →
    ∃ getter, member.getter = some getter ∧ getter ∉ reservedMethods

/-- Two fields share the identifier of their group if they are in one, and nothing else. -/
structure Member.Apart (field other : Field) (member member' : Member) : Prop where
  identifier : member.identifier = member'.identifier ↔
    field.oneof.isSome ∧ field.oneof = other.oneof
  variant : field.oneof = other.oneof → ∀ variant, member.variant = some variant →
    member'.variant ≠ some variant
  getter : ∀ getter, member.getter = some getter → member'.getter ≠ some getter

theorem Member.Apart.symm {field other : Field} {member member' : Member}
    (apart : Apart field other member member') : Apart other field member' member where
  identifier := by
    rw [eq_comm, apart.identifier]
    constructor
    · rintro ⟨some, same⟩
      exact ⟨same ▸ some, same.symm⟩
    · rintro ⟨some, same⟩
      exact ⟨same ▸ some, same.symm⟩
  variant same variant here there := apart.variant same.symm variant there here
  getter getter here there := apart.getter getter there here

namespace MemberNames

variable {names more : MemberNames} {members : List (Field × Member)} {field : Field}
  {member : Member}

/-- The variants taken in the enum of a group. -/
def variantsOf (names : MemberNames) (group : String) : KeySet String :=
  (names.variants.get? group).getD .empty

/-- The identifiers of a field are taken, and that of the structure belongs to its group if it is in
one, and to no group otherwise. -/
structure Fits (names : MemberNames) (field : Field) (member : Member) : Prop where
  taken : names.fields.contains member.identifier
  group : ∀ group, names.groups.get? group = some member.identifier ↔ field.oneof = some group
  variant : ∀ variant, member.variant = some variant →
    ∃ group, field.oneof = some group ∧ (names.variantsOf group).contains variant
  getter : ∀ getter, member.getter = some getter → names.methods.contains getter

/-- More identifiers are taken, and fields have the groups they had. -/
structure Extends (names more : MemberNames) : Prop where
  fields : ∀ identifier, names.fields.contains identifier → more.fields.contains identifier
  methods : ∀ method, names.methods.contains method → more.methods.contains method
  variants : ∀ group variant, (names.variantsOf group).contains variant →
    (more.variantsOf group).contains variant
  groups : ∀ group identifier, names.fields.contains identifier →
    (more.groups.get? group = some identifier ↔ names.groups.get? group = some identifier)
  members : more.members = names.members

theorem Fits.extend (fits : Fits names field member) (extended : Extends names more) :
    Fits more field member where
  taken := extended.fields _ fits.taken
  group group := (extended.groups group _ fits.taken).trans (fits.group group)
  variant variant here := by
    obtain ⟨group, among, taken⟩ := fits.variant variant here
    exact ⟨group, among, extended.variants _ _ taken⟩
  getter getter here := extended.methods _ (fits.getter getter here)

/-- What a structure uses itself is taken, and each group has an identifier of its own. -/
structure Guarded (names : MemberNames) : Prop where
  own : names.fields.contains "unknown_fields"
  methods : ∀ method ∈ reservedMethods, names.methods.contains method
  groups : ∀ group identifier, names.groups.get? group = some identifier →
    names.fields.contains identifier ∧ IsWord identifier ∧ identifier ≠ "unknown_fields"
  groups_inj : ∀ group other identifier, names.groups.get? group = some identifier →
    names.groups.get? other = some identifier → group = other

/-- Fields were given identifiers: these are found by tag, and are sound, taken and apart. -/
structure Gives (names : MemberNames) (members : List (Field × Member)) : Prop where
  found : ∀ pair ∈ members, names.members.get? pair.1.tag = some pair.2
  sound : ∀ pair ∈ members, pair.2.Sound pair.1
  fits : ∀ pair ∈ members, Fits names pair.1 pair.2
  apart : members.Pairwise fun pair other => Member.Apart pair.1 other.1 pair.2 other.2

theorem Gives.extend (gives : Gives names members) (extended : Extends names more) :
    Gives more members where
  found pair held := extended.members ▸ gives.found pair held
  sound := gives.sound
  fits pair held := (gives.fits pair held).extend extended
  apart := gives.apart

/-- One more field is given identifiers that are taken and apart from those of the others. -/
theorem Gives.insert (gives : Gives names members)
    (fresh : ∀ pair ∈ members, pair.1.tag ≠ field.tag) (sound : member.Sound field)
    (fits : Fits names field member)
    (apart : ∀ pair ∈ members, Member.Apart pair.1 field pair.2 member) :
    Gives { names with members := names.members.insert field.tag member }
      (members ++ [(field, member)]) where
  found := by
    refine List.forall_mem_append.2 ⟨fun pair held => ?_, List.forall_mem_singleton.2 ?_⟩
    · rw [Table.get?_insert, if_neg (fresh pair held)]
      exact gives.found pair held
    · rw [Table.get?_insert, if_pos rfl]
  sound := List.forall_mem_append.2 ⟨gives.sound, List.forall_mem_singleton.2 sound⟩
  fits := by
    refine List.forall_mem_append.2 ⟨fun pair held => ?_, List.forall_mem_singleton.2 ?_⟩
    · obtain ⟨taken, group, variant, getter⟩ := gives.fits pair held
      exact ⟨taken, group, variant, getter⟩
    · obtain ⟨taken, group, variant, getter⟩ := fits
      exact ⟨taken, group, variant, getter⟩
  apart := by
    refine List.pairwise_append.2 ⟨gives.apart, List.pairwise_singleton _ _, fun pair held => ?_⟩
    exact List.forall_mem_singleton.2 (apart pair held)

theorem Guarded.extend (guarded : Guarded names) (extended : Extends names more)
    (groups : more.groups = names.groups) (members : Table Nat Member) :
    Guarded { more with members := members } where
  own := extended.fields _ guarded.own
  methods method reserved := extended.methods _ (guarded.methods method reserved)
  groups group identifier there := by
    obtain ⟨held, word, own⟩ := guarded.groups group identifier (groups ▸ there)
    exact ⟨extended.fields _ held, word, own⟩
  groups_inj group other identifier here there :=
    guarded.groups_inj group other identifier (groups ▸ here) (groups ▸ there)

/-- A field that is new is not one of the structure itself. -/
theorem Guarded.ne_own (guarded : Guarded names) {identifier : String}
    (new : names.fields.contains identifier = false) : identifier ≠ "unknown_fields" := by
  rintro rfl
  rw [guarded.own] at new
  cases new

/-- No group has a field that was not taken. -/
theorem Guarded.get?_groups_ne (guarded : Guarded names) {identifier : String}
    (new : names.fields.contains identifier = false) (group : String) :
    names.groups.get? group ≠ some identifier := by
  intro known
  have taken := (guarded.groups group identifier known).1
  rw [new] at taken
  cases taken

/-- A group without a field may be given any new word. -/
theorem Guarded.giveGroup (guarded : Guarded names) {group identifier : String}
    {fields : KeySet String} (missing : names.groups.get? group = none) (word : IsWord identifier)
    (new : names.fields.contains identifier = false)
    (taken_iff : ∀ other, fields.contains other ↔
      other = identifier ∨ names.fields.contains other) :
    let more := { names with fields := fields, groups := names.groups.insert group identifier }
    Guarded more ∧ Extends names more := by
  have groups_iff {other found : String} :
      (names.groups.insert group identifier).get? other = some found ↔ _ :=
    Table.get?_insert_eq_some_iff missing
  refine ⟨⟨(taken_iff _).2 (.inr guarded.own), guarded.methods, fun other found there => ?_,
    fun one other found here there => ?_⟩, ⟨fun other held => (taken_iff _).2 (.inr held),
    fun _ => id, fun _ _ => id, fun other found held => ?_, rfl⟩⟩
  · rcases groups_iff.1 there with ⟨-, rfl⟩ | there
    · exact ⟨(taken_iff _).2 (.inl rfl), word, guarded.ne_own new⟩
    · obtain ⟨held, known⟩ := guarded.groups other found there
      exact ⟨(taken_iff _).2 (.inr held), known⟩
  · rcases groups_iff.1 here with ⟨rfl, rfl⟩ | before
    · rcases groups_iff.1 there with ⟨rfl, -⟩ | before
      · rfl
      · exact absurd before (guarded.get?_groups_ne new other)
    · rcases groups_iff.1 there with ⟨rfl, rfl⟩ | before'
      · exact absurd before (guarded.get?_groups_ne new one)
      · exact guarded.groups_inj one other found before before'
  · refine groups_iff.trans (or_iff_right ?_)
    rintro ⟨-, rfl⟩
    rw [new] at held
    cases held

/-- The field of a group is the one it had, or a new one. -/
theorem groupField_spec (guarded : Guarded names) (group : String) :
    Guarded (names.groupField group).2 ∧ Extends names (names.groupField group).2 ∧
      (names.groupField group).2.groups.get? group = some (names.groupField group).1 := by
  unfold groupField
  cases known : names.groups.get? group with
  | some identifier =>
    exact ⟨guarded, ⟨fun _ => id, fun _ => id, fun _ _ => id, fun _ _ _ => Iff.rfl, rfl⟩, known⟩
  | none =>
    obtain ⟨guarded, extended⟩ := guarded.giveGroup known
      ((isWord_escape (Name.snake group)).claim names.fields) (not_contains_claim ..)
      fun other => contains_claim_iff
    exact ⟨guarded, extended, (Table.get?_insert_eq_some_iff known).2 (.inl ⟨rfl, rfl⟩)⟩

/-- A plain field is given an identifier of its own, and a getter where it needs one. -/
theorem Gives.plain (gives : Gives names members) (guarded : Guarded names) {identifier : String}
    {getter : Option String} (extended : Extends names more) (groups : more.groups = names.groups)
    (fresh : ∀ pair ∈ members, pair.1.tag ≠ field.tag) (alone : field.oneof = none)
    (word : IsWord identifier) (new : names.fields.contains identifier = false)
    (taken : more.fields.contains identifier) (needed : field.default.isSome → getter.isSome)
    (method : ∀ method, getter = some method →
      names.methods.contains method = false ∧ more.methods.contains method) :
    Gives { more with members := more.members.insert field.tag ⟨identifier, none, getter⟩ }
      (members ++ [(field, ⟨identifier, none, getter⟩)]) := by
  have sound : Member.Sound field ⟨identifier, none, getter⟩ := by
    refine ⟨word, guarded.ne_own new, fun group among => ?_, fun _ default => ?_⟩
    · rw [alone] at among
      cases among
    · obtain ⟨name, given⟩ := Option.isSome_iff_exists.1 (needed default)
      refine ⟨name, given, fun reserved => ?_⟩
      have unused := (method name given).1
      rw [guarded.methods name reserved] at unused
      cases unused
  refine (gives.extend extended).insert fresh sound ⟨taken, fun group => ?_, fun _ none => ?_,
    fun _ here => (method _ here).2⟩ fun pair held => ⟨?_, fun _ _ _ none => ?_, ?_⟩
  · rw [groups, alone]
    exact ⟨fun known => absurd known (guarded.get?_groups_ne new group), fun none => by cases none⟩
  · cases none
  · rw [alone]
    constructor
    · intro same
      have there := (gives.fits pair held).taken
      simp only [same, new, Bool.false_eq_true] at there
    · rintro ⟨some, same⟩
      rw [same] at some
      cases some
  · cases none
  · intro other there here
    have taken := (gives.fits pair held).getter other there
    rw [(method other here).1] at taken
    cases taken

/-- A member of a group is given the field of the group and a variant of its own. -/
theorem Gives.grouped (gives : Gives names members) (guarded : Guarded names) {group : String}
    {identifier variant : String} (extended : Extends names more)
    (groups : more.groups = names.groups) (known : names.groups.get? group = some identifier)
    (fresh : ∀ pair ∈ members, pair.1.tag ≠ field.tag) (among : field.oneof = some group)
    (word : IsWord variant) (new : (names.variantsOf group).contains variant = false)
    (taken : (more.variantsOf group).contains variant) :
    Gives { more with members := more.members.insert field.tag ⟨identifier, some variant, none⟩ }
      (members ++ [(field, ⟨identifier, some variant, none⟩)]) := by
  obtain ⟨held, fieldWord, own⟩ := guarded.groups group identifier known
  have sound : Member.Sound field ⟨identifier, some variant, none⟩ := by
    refine ⟨fieldWord, own, fun _ _ => ⟨variant, rfl, word⟩, fun alone => ?_⟩
    rw [among] at alone
    cases alone
  refine (gives.extend extended).insert fresh sound ⟨extended.fields _ held, fun other => ?_,
    fun _ same => ?_, fun _ none => ?_⟩ fun pair there => ⟨?_, fun same other here last => ?_,
      fun _ _ none => ?_⟩
  · rw [groups, among]
    constructor
    · intro there
      rw [guarded.groups_inj group other identifier known there]
    · rintro ⟨⟩
      exact known
  · cases same
    exact ⟨group, among, taken⟩
  · cases none
  · have fits := (gives.fits pair there).group group
    rw [known, Option.some.injEq] at fits
    rw [eq_comm, fits, among]
    constructor
    · intro same
      rw [same]
      exact ⟨rfl, rfl⟩
    · exact And.right
  · cases last
    obtain ⟨group', among', held⟩ := (gives.fits pair there).variant variant here
    rw [same, among] at among'
    cases among'
    rw [new] at held
    cases held
  · cases none

theorem variantsOf_insert (names : MemberNames) (group other : String) (taken : KeySet String) :
    variantsOf { names with variants := names.variants.insert group taken } other =
      if other = group then taken else names.variantsOf other := by
  simp only [variantsOf, Table.get?_insert]
  split <;> rfl

/-- A variant is taken in the enum of its group. -/
theorem extends_claimVariant (names : MemberNames) (group variant : String) :
    Extends names { names with
      variants := names.variants.insert group (claim (names.variantsOf group) variant).2 } := by
  refine ⟨fun _ => id, fun _ => id, fun other held there => ?_, fun _ _ _ => Iff.rfl, rfl⟩
  rw [variantsOf_insert]
  split
  · rename_i same
    exact contains_claim_iff.2 (.inr (same ▸ there))
  · exact there

/-- Each field is given identifiers. -/
theorem gives_add (guarded : Guarded names) (gives : Gives names members)
    (fresh : ∀ pair ∈ members, pair.1.tag ≠ field.tag) :
    Guarded (names.add field) ∧
      ∃ member, Gives (names.add field) (members ++ [(field, member)]) := by
  unfold add
  cases oneof : field.oneof with
  | some group =>
    obtain ⟨guarded, extended, known⟩ := groupField_spec guarded group
    simp only
    generalize names.groupField group = result at guarded extended known ⊢
    obtain ⟨identifier, next⟩ := result
    let free := claim (next.variantsOf group) (variantIdentifier field.name)
    have word : IsWord free.1 :=
      (isWord_escape (Name.pascal field.name)).claim (next.variantsOf group)
    have further := extends_claimVariant next group (variantIdentifier field.name)
    have taken : (variantsOf { next with variants := next.variants.insert group free.2 }
        group).contains free.1 := by
      rw [variantsOf_insert, if_pos rfl]
      exact contains_claim_iff.2 (.inl rfl)
    exact ⟨guarded.extend further rfl _, ⟨identifier, some free.1, none⟩,
      (gives.extend extended).grouped guarded further rfl known fresh oneof word
        (not_contains_claim ..) taken⟩
  | none =>
    let free := claim names.fields (fieldIdentifier field.name)
    have word : IsWord free.1 := (isWord_escape (Name.snake field.name)).claim names.fields
    have new : names.fields.contains free.1 = false := not_contains_claim ..
    have taken : free.2.contains free.1 := contains_claim_iff.2 (.inl rfl)
    have grows : ∀ other, names.fields.contains other → free.2.contains other :=
      fun other held => contains_claim_iff.2 (.inr held)
    simp only
    cases default : field.default with
    | none =>
      have further : Extends names { names with fields := free.2 } :=
        ⟨grows, fun _ => id, fun _ _ => id, fun _ _ _ => Iff.rfl, rfl⟩
      refine ⟨guarded.extend further rfl _, ⟨free.1, none, none⟩,
        gives.plain guarded further rfl fresh oneof word new taken (fun some => ?_)
          fun method none => ?_⟩
      · rw [default] at some
        cases some
      · cases none
    | some value =>
      let getter := claim names.methods free.1
      have further : Extends names { names with fields := free.2, methods := getter.2 } :=
        ⟨grows, fun method held => contains_claim_iff.2 (.inr held), fun _ _ => id,
          fun _ _ _ => Iff.rfl, rfl⟩
      refine ⟨guarded.extend further rfl _, ⟨free.1, none, some getter.1⟩,
        gives.plain guarded further rfl fresh oneof word new taken (fun _ => rfl)
          fun method same => ?_⟩
      obtain rfl : getter.1 = method := Option.some.inj same
      exact ⟨not_contains_claim .., contains_claim_iff.2 (.inl rfl)⟩

theorem gives_foldl_add (fields : List Field) (distinct : (fields.map (·.tag)).Nodup) :
    Guarded (fields.foldl add {}) ∧
      ∃ members, members.map (·.1) = fields ∧ Gives (fields.foldl add {}) members := by
  induction fields using List.reverseRecOn with
  | nil =>
    refine ⟨⟨contains_taking_iff.2 (List.mem_singleton_self _), fun method held =>
      contains_taking_iff.2 held, fun _ _ none => ?_, fun _ _ _ none => ?_⟩, [], rfl,
      ⟨?_, ?_, ?_, .nil⟩⟩
    · cases none
    · cases none
    all_goals exact fun pair held => absurd held List.not_mem_nil
  | append_singleton front field ih =>
    rw [List.map_append, List.nodup_append] at distinct
    obtain ⟨guarded, members, rfl, gives⟩ := ih distinct.1
    have fresh : ∀ pair ∈ members, pair.1.tag ≠ field.tag := fun pair held =>
      distinct.2.2 _ (List.mem_map_of_mem (List.mem_map_of_mem held)) _ (List.mem_singleton_self _)
    rw [List.foldl_append]
    obtain ⟨guarded, member, gives⟩ := gives_add guarded gives fresh
    exact ⟨guarded, members ++ [(field, member)], by rw [List.map_append]; rfl, gives⟩

end MemberNames

/-- The fields of a message have sound identifiers, and those of two fields are apart. -/
theorem exists_member {type : MessageType} (tagged : (type.fields.map (·.tag)).Nodup)
    {field : Field} (declared : field ∈ type.fields) :
    ∃ member, (membersOf type).get? field.tag = some member ∧ member.Sound field ∧
      ∀ other ∈ type.fields, field ≠ other → ∃ member',
        (membersOf type).get? other.tag = some member' ∧
          Member.Apart field other member member' := by
  obtain ⟨-, members, fields, gives⟩ := MemberNames.gives_foldl_add type.fields tagged
  rw [← fields] at declared
  obtain ⟨pair, among, rfl⟩ := List.mem_map.1 declared
  refine ⟨pair.2, gives.found pair among, gives.sound pair among, fun other declared' apart => ?_⟩
  rw [← fields] at declared'
  obtain ⟨pair', among', rfl⟩ := List.mem_map.1 declared'
  have : Std.Symm fun pair other : Field × Member =>
      Member.Apart pair.1 other.1 pair.2 other.2 := ⟨fun _ _ => Member.Apart.symm⟩
  exact ⟨pair'.2, gives.found pair' among', gives.apart.forall among among'
    fun same => apart (congrArg Prod.fst same)⟩

/-- Where no two types of a schema have one full name and no two fields of a message one tag, a
module gives its types and groups distinct identifiers, none a keyword or a type that it uses
itself. Each field has identifiers that are words and not of the structure itself, and two fields
share one only if it is that of their group. The values of each enum have distinct identifiers. The
search for an identifier ends: it finds the one with the fewest underscores, after no more of them
than there are taken ones. -/
theorem identifiers_distinct {schema : Schema} (package : String)
    (named : (schema.allMessages.map (·.name) ++ schema.allEnums.map (·.name)).Nodup)
    (tagged : ∀ type ∈ schema.allMessages, (type.fields.map (·.tag)).Nodup) :
    ((moduleIdentifiers schema (Names.of (.ofSchema schema) package)).Nodup ∧
      ∀ identifier ∈ moduleIdentifiers schema (Names.of (.ofSchema schema) package),
        identifier ∉ keywords ∧ identifier ∉ reservedTypes) ∧
    (∀ type ∈ schema.allMessages, ∀ field ∈ type.fields, ∃ member,
      (membersOf type).get? field.tag = some member ∧ member.Sound field ∧
      ∀ other ∈ type.fields, field ≠ other → ∃ member',
        (membersOf type).get? other.tag = some member' ∧ Member.Apart field other member member') ∧
    (∀ type ∈ schema.allEnums, ((enumItems .empty [] type.values).map (·.identifier)).Nodup) ∧
    ∀ taken identifier, ∃ count ≤ taken.entries.length,
      freeIdentifier taken identifier = underscored identifier count ∧
      taken.contains (underscored identifier count) = false ∧
      ∀ fewer < count, taken.contains (underscored identifier fewer) := by
  refine ⟨?_, fun type held field declared => exists_member (tagged type held) declared,
    fun type held => ?_, freeIdentifier_spec⟩
  · obtain ⟨given, taken, claimed, perm⟩ := exists_claimed_moduleIdentifiers package named
    refine ⟨perm.nodup_iff.1 claimed.nodup, fun identifier among => ?_⟩
    have among := perm.mem_iff.2 among
    exact ⟨(claimed.word identifier among).2, claimed.fresh identifier among⟩
  · obtain ⟨after, claimed⟩ := exists_claimed_enumItems (claimed_taking []) [] type.values
    exact claimed.nodup

/-- A message whose name is a keyword, with fields that differ by case only. -/
def homonym : MessageType :=
  let group : Option String := some "type"
  let fields : List Field := [{ name := "type", tag := 1, type := .builtin .uint32 },
    { name := "Type", tag := 2, type := .builtin .uint32 },
    { name := "a_b", tag := 3, type := .builtin .bool, oneof := group },
    { name := "aB", tag := 4, type := .builtin .bool, oneof := group }]
  { name := "Self", fields := fields, oneofs := .ofFields [] fields }

/-- Types that differ by case only. -/
def homonyms : Schema :=
  { messages := [homonym, { name := "self" }], enums := [{ name := "sElf" }] }

/-- The types are told apart, and so are a field and the one that differs by case only. -/
theorem identifiers_distinct_homonyms :
    (moduleIdentifiers homonyms (Names.of (.ofSchema homonyms) "")).Nodup ∧
      ∃ member, (membersOf homonym).get? 1 = some member ∧
        ∃ other, (membersOf homonym).get? 2 = some other ∧
          member.identifier ≠ other.identifier := by
  obtain ⟨⟨distinct, -⟩, fields, -⟩ := identifiers_distinct ""
    (show (homonyms.allMessages.map (·.name) ++ homonyms.allEnums.map (·.name)).Nodup by decide)
    (by decide)
  obtain ⟨member, found, -, others⟩ := fields homonym List.mem_cons_self
    { name := "type", tag := 1, type := .builtin .uint32 } List.mem_cons_self
  obtain ⟨other, found', apart⟩ := others { name := "Type", tag := 2, type := .builtin .uint32 }
    (List.mem_cons_of_mem _ List.mem_cons_self) (by decide)
  exact ⟨distinct, member, found, other, found', fun same =>
    absurd (apart.identifier.1 same).1 Bool.false_ne_true⟩

/-- Three types called alike, and the enum of a group. -/
example : moduleIdentifiers homonyms (Names.of (.ofSchema homonyms) "") =
    ["Self_", "Self__", "SElf", "Self_Type"] := by
  decide +kernel

end Emission

end Protobuf
