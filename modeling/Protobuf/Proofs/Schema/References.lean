import Protobuf.Proofs.Schema.Violations
import Protobuf.Proofs.Success
import Protobuf.Schema.Build

/-! # References of built schemas

A token of a type is looked up among the names that were collected from all declarations; a
reference in a schema is looked up among the types that were built from them. Where several types
are declared with one full name, the former has the kind of the last of them and the latter the
first of each kind. Every name that was collected is still that of a built type of its kind, so a
built schema leaves no reference open. Main statement: `FileDeclaration.resolves_of_build`.

## Implementation notes

Names are collected and types are built by two recursions over the declarations. Between them stands
the row of the declared names with their kinds: the former inserts them one after another, and the
latter builds a type for each of them, in another order. The lemmas on either go by its recursion,
each with a second one for several messages. -/

namespace Protobuf

/-- A type is another one, or has it as the type of its keys or values. -/
inductive FieldType.Mentions : FieldType → FieldType → Prop
  | self (type : FieldType) : Mentions type type
  | key {key value part : FieldType} (inside : key.Mentions part) : Mentions (.map key value) part
  | value {key value part : FieldType} (inside : value.Mentions part) :
    Mentions (.map key value) part

/-- The fields of the entry messages of a type have types that it mentions. -/
theorem FieldType.mentions_of_mem_entryMessages {type : FieldType} {scope fieldName : String}
    {entry : MessageType} (held : entry ∈ type.entryMessages scope fieldName) {field : Field}
    (declared : field ∈ entry.fields) : type.Mentions field.type := by
  induction type generalizing scope fieldName with
  | map key value ihKey ihValue =>
    rw [entryMessages, List.mem_cons, List.mem_append] at held
    rcases held with rfl | inKey | inValue
    · simp only [entryMessage, List.mem_cons, List.not_mem_nil, or_false] at declared
      rcases declared with rfl | rfl
      · exact .key (.self key)
      · exact .value (.self value)
    · exact .key (ihKey inKey)
    · exact .value (ihValue inValue)
  | _ => cases held

/-! ## Names that were collected -/

/-- A type of the kind has the name. -/
def TypeKind.Among (messages : List MessageType) (enums : List EnumType) (name : String) :
    TypeKind → Prop
  | .message => ∃ type ∈ messages, type.name = name
  | .enum => ∃ type ∈ enums, type.name = name

/-- A reference of a kind resolves exactly if the schema has a type of this kind with the name. -/
theorem Registry.resolves_refer_iff {schema : Schema} {kind : TypeKind} {name : String} :
    (Registry.ofSchema schema).resolves (kind.refer name) ↔
      kind.Among schema.allMessages schema.allEnums name := by
  cases kind with
  | message => simp [TypeKind.refer, resolves, TypeKind.Among, Schema.message?_ofSchema]
  | enum => simp [TypeKind.refer, resolves, TypeKind.Among, Schema.enum?_ofSchema]

/-- The full names and the kinds of enums declared in a scope. -/
def EnumDeclaration.kinds (scope : String) (enums : List EnumDeclaration) :
    List (String × TypeKind) :=
  enums.map fun declaration => (Name.join scope declaration.name, .enum)

mutual

/-- The full names and the kinds of a message declared in a scope and of the types in it. -/
def MessageDeclaration.kinds (scope : String) : MessageDeclaration → List (String × TypeKind)
  | ⟨name, _, messages, enums, _, _⟩ =>
    let name := Name.join scope name
    MessageDeclaration.allKinds name messages ++ EnumDeclaration.kinds name enums ++
      [(name, .message)]

/-- The full names and the kinds of messages declared in a scope and of the types in them. -/
def MessageDeclaration.allKinds (scope : String) :
    List MessageDeclaration → List (String × TypeKind)
  | [] => []
  | declaration :: rest => declaration.kinds scope ++ allKinds scope rest

end

/-- The full names and the kinds of all types declared in a file. -/
def FileDeclaration.kinds (file : FileDeclaration) : List (String × TypeKind) :=
  MessageDeclaration.allKinds file.scope file.messages ++
    EnumDeclaration.kinds file.scope file.enums

/-- The names with further ones, each of a kind. -/
def KnownTypes.addKinds (known : KnownTypes) (kinds : List (String × TypeKind)) : KnownTypes :=
  kinds.foldl (fun known kind => known.insert kind.1 kind.2) known

theorem KnownTypes.addKinds_append (known : KnownTypes) (kinds more : List (String × TypeKind)) :
    known.addKinds (kinds ++ more) = (known.addKinds kinds).addKinds more :=
  List.foldl_append

/-- A name has a kind that was given to it. -/
theorem KnownTypes.mem_of_get?_addKinds {kinds : List (String × TypeKind)} {name : String}
    {kind : TypeKind} (found : (addKinds .empty kinds).get? name = some kind) :
    (name, kind) ∈ kinds := by
  rw [addKinds, Table.get?_foldl_insert Prod.fst Prod.snd, Table.get?_empty, Option.or_none,
    Option.map_eq_some_iff] at found
  obtain ⟨⟨own, _⟩, last, rfl⟩ := found
  obtain rfl : own = name := by simpa using List.find?_some last
  exact List.mem_reverse.1 (List.mem_of_find?_eq_some last)

theorem KnownTypes.addEnums_eq (known : KnownTypes) (scope : String)
    (enums : List EnumDeclaration) :
    known.addEnums scope enums = known.addKinds (EnumDeclaration.kinds scope enums) := by
  rw [addEnums, addKinds, EnumDeclaration.kinds, List.foldl_map]

mutual

theorem MessageDeclaration.addNames_eq (scope : String) (known : KnownTypes) :
    ∀ declaration : MessageDeclaration,
      declaration.addNames scope known = known.addKinds (declaration.kinds scope)
  | ⟨name, fields, messages, enums, oneofs, reserved⟩ => by
    rw [addNames, kinds, KnownTypes.addKinds_append, KnownTypes.addKinds_append,
      MessageDeclaration.addAllNames_eq _ known messages, KnownTypes.addEnums_eq]
    rfl

theorem MessageDeclaration.addAllNames_eq (scope : String) (known : KnownTypes) :
    ∀ declarations : List MessageDeclaration,
      addAllNames scope known declarations = known.addKinds (allKinds scope declarations)
  | [] => rfl
  | declaration :: rest => by
    rw [addAllNames, allKinds, KnownTypes.addKinds_append,
      MessageDeclaration.addNames_eq scope known declaration, MessageDeclaration.addAllNames_eq]

end

/-- The known types are the declared ones, in the order of their scopes. -/
theorem FileDeclaration.knownTypes_eq (file : FileDeclaration) :
    file.knownTypes = KnownTypes.addKinds .empty file.kinds := by
  rw [knownTypes, MessageDeclaration.addAllNames_eq, KnownTypes.addEnums_eq, kinds,
    KnownTypes.addKinds_append]

/-- The full names and the kinds of types. -/
def TypeKind.ofTypes (messages : List MessageType) (enums : List EnumType) :
    List (String × TypeKind) :=
  messages.map (fun type => (type.name, .message)) ++ enums.map fun type => (type.name, .enum)

theorem EnumDeclaration.kinds_eq (scope : String) (enums : List EnumDeclaration) :
    kinds scope enums = TypeKind.ofTypes [] (enums.map (EnumDeclaration.build scope)) := by
  simp [kinds, TypeKind.ofTypes, EnumDeclaration.build, Function.comp_def]

mutual

theorem MessageDeclaration.perm_kinds_of_build {known : KnownTypes} {scope : String} :
    ∀ {declaration : MessageDeclaration} {type : MessageType},
      declaration.build known scope = .ok type →
      (TypeKind.ofTypes type.withNested type.enumsWithin).Perm (declaration.kinds scope)
  | ⟨name, fields, messages, enums, oneofs, reserved⟩, type, built => by
    simp only [build, bind_eq_ok_iff] at built
    obtain ⟨builtFields, -, nested, inner, ⟨⟩⟩ := built
    refine List.perm_iff_count.2 fun kind => ?_
    have inside := (MessageDeclaration.perm_kinds_of_buildAll inner).count_eq kind
    rw [kinds, EnumDeclaration.kinds_eq]
    simp only [TypeKind.ofTypes, MessageType.withNested, MessageType.enumsWithin, List.map_cons,
      List.map_append, List.cons_append, List.count_cons, List.count_append, List.map_nil,
      List.count_nil] at inside ⊢
    omega

/-- The types that are built have the names and the kinds that they are declared with. -/
theorem MessageDeclaration.perm_kinds_of_buildAll {known : KnownTypes} {scope : String} :
    ∀ {declarations : List MessageDeclaration} {types : List MessageType},
      buildAll known scope declarations = .ok types →
      (TypeKind.ofTypes (MessageType.allNested types) (MessageType.allEnumsWithin types)).Perm
        (allKinds scope declarations)
  | [], types, built => by
    cases built
    exact .refl _
  | declaration :: rest, types, built => by
    simp only [buildAll, bind_eq_ok_iff] at built
    obtain ⟨type, first, others, after, ⟨⟩⟩ := built
    refine List.perm_iff_count.2 fun kind => ?_
    have here := (MessageDeclaration.perm_kinds_of_build first).count_eq kind
    have later := (MessageDeclaration.perm_kinds_of_buildAll after).count_eq kind
    rw [allKinds]
    simp only [TypeKind.ofTypes, MessageType.allNested, MessageType.allEnumsWithin,
      List.map_append, List.count_append] at here later ⊢
    omega

end

/-- The types of a schema have the names and the kinds that they are declared with. -/
theorem FileDeclaration.perm_kinds_of_build {file : FileDeclaration} {schema : Schema}
    (built : file.build = .ok schema) :
    (TypeKind.ofTypes schema.allMessages schema.allEnums).Perm file.kinds := by
  rw [build, bind_eq_ok_iff] at built
  obtain ⟨messages, inner, ⟨⟩⟩ := built
  rw [kinds, EnumDeclaration.kinds_eq]
  refine .trans (.of_eq ?_) ((MessageDeclaration.perm_kinds_of_buildAll inner).append_right _)
  simp [TypeKind.ofTypes, Schema.allMessages, Schema.allEnums]

theorem TypeKind.mem_ofTypes_iff {messages : List MessageType} {enums : List EnumType}
    {name : String} {kind : TypeKind} :
    (name, kind) ∈ ofTypes messages enums ↔ kind.Among messages enums name := by
  cases kind <;> simp [ofTypes, Among]

/-- Every name collected from a file is that of a type of its kind in the schema built from it. -/
theorem FileDeclaration.among_of_get?_knownTypes {file : FileDeclaration} {schema : Schema}
    (built : file.build = .ok schema) {name : String} {kind : TypeKind}
    (found : file.knownTypes.get? name = some kind) :
    kind.Among schema.allMessages schema.allEnums name := by
  rw [knownTypes_eq] at found
  have declared := KnownTypes.mem_of_get?_addKinds found
  exact TypeKind.mem_ofTypes_iff.1 ((perm_kinds_of_build built).mem_iff.2 declared)

/-! ## Tokens that were resolved -/

/-- A token that is no map stands for a built-in type or for a known one. -/
theorem Reference.get?_of_resolveNamed {known : KnownTypes} {scope : String} {token : List Char}
    {type : FieldType} (found : resolveNamed known scope token = .ok type) {name : String}
    {kind : TypeKind} (inside : type.Mentions (kind.refer name)) :
    known.get? name = some kind := by
  unfold resolveNamed at found
  dsimp only at found
  split at found
  · cases found
    cases kind <;> cases inside
  · split at found
    · rename_i named
      cases found
      obtain ⟨-, -, named⟩ := Option.bind_eq_some_iff.1 named
      obtain ⟨other, -, named⟩ := Option.bind_eq_some_iff.1 named
      obtain ⟨kind', there, ⟨⟩⟩ := Option.bind_eq_some_iff.1 named
      cases kind <;> cases kind' <;> cases inside <;> exact there
    · cases found

/-- Every type that the type of a token mentions is known by its name, as what it is. -/
theorem get?_of_resolve {known : KnownTypes} {scope token : String} {type : FieldType}
    (found : resolve known scope token = .ok type) {name : String} {kind : TypeKind}
    (inside : type.Mentions (kind.refer name)) : known.get? name = some kind := by
  simp only [resolve] at found
  split at found
  · simp only [bind_eq_ok_iff] at found
    obtain ⟨key, first, value, second, done⟩ := found
    cases done
    generalize part : kind.refer name = type at inside
    cases inside with
    | self => cases kind <;> cases part
    | key inside => exact Reference.get?_of_resolveNamed first (part ▸ inside)
    | value inside => exact Reference.get?_of_resolveNamed second (part ▸ inside)
  · exact Reference.get?_of_resolveNamed found inside

/-- Each field of a message has a type that some token stands for in some scope. -/
def MessageType.Resolved (known : KnownTypes) (type : MessageType) : Prop :=
  ∀ field ∈ type.fields, ∃ scope token, resolve known scope token = .ok field.type

namespace MessageDeclaration

mutual

/-- The fields of a built message and of the messages in it have types that stand for tokens. -/
theorem resolved_of_build {known : KnownTypes} {scope : String} :
    ∀ {declaration : MessageDeclaration} {type : MessageType},
      declaration.build known scope = .ok type → ∀ inner ∈ type.withNested, inner.Resolved known
  | ⟨own, fields, messages, enums, groups, reserved⟩, type, built => by
    simp only [build, bind_eq_ok_iff] at built
    obtain ⟨builtFields, each, builtMessages, inner, done⟩ := built
    cases done
    rw [MessageType.withNested, List.forall_mem_cons]
    refine ⟨fun field held => ?_, resolved_of_buildAll inner⟩
    obtain ⟨declaration, -, built⟩ := exists_of_mem_mapM each held
    unfold FieldDeclaration.build at built
    split at built
    · cases built
    · rename_i found
      cases built
      exact ⟨_, _, found⟩

/-- The fields of built messages and of the messages in them have types that stand for tokens. -/
theorem resolved_of_buildAll {known : KnownTypes} {scope : String} :
    ∀ {declarations : List MessageDeclaration} {types : List MessageType},
      buildAll known scope declarations = .ok types →
      ∀ inner ∈ MessageType.allNested types, inner.Resolved known
  | [], types, built => by
    cases built
    exact fun inner held => absurd held List.not_mem_nil
  | declaration :: rest, types, built => by
    simp only [buildAll, bind_eq_ok_iff] at built
    obtain ⟨type, first, others, after, done⟩ := built
    cases done
    exact List.forall_mem_append.2 ⟨resolved_of_build first, resolved_of_buildAll after⟩

end

end MessageDeclaration

/-! ## Built schemas -/

/-- Every type that a field of a built schema mentions resolves. -/
theorem FileDeclaration.resolves_of_mentions {file : FileDeclaration} {schema : Schema}
    (built : file.build = .ok schema) {type : MessageType} (held : type ∈ schema.allMessages)
    {field : Field} (declared : field ∈ type.fields) {part : FieldType}
    (inside : field.type.Mentions part) : (Registry.ofSchema schema).resolves part := by
  have resolved : type.Resolved file.knownTypes := by
    have parts := built
    rw [build, bind_eq_ok_iff] at parts
    obtain ⟨messages, inner, done⟩ := parts
    cases done
    exact MessageDeclaration.resolved_of_buildAll inner type held
  obtain ⟨scope, token, found⟩ := resolved field declared
  have known (kind : TypeKind) {name : String} (same : part = kind.refer name) :
      (Registry.ofSchema schema).resolves part := by
    rw [same, Registry.resolves_refer_iff]
    exact among_of_get?_knownTypes built (get?_of_resolve found (same ▸ inside))
  cases part with
  | message name => exact known .message rfl
  | enum name => exact known .enum rfl
  | builtin | map => rfl

/-- A built schema has no dangling references: every message and every enum that the type of a field
mentions, be it as the key or the value of a map, is known under its name as what it is. So
validation reports no reference that does not resolve. -/
theorem FileDeclaration.resolves_of_build {file : FileDeclaration} {schema : Schema}
    (built : file.build = .ok schema) :
    (∀ type ∈ schema.allMessages, ∀ field ∈ type.fields, ∀ name,
      (field.type.Mentions (.message name) →
        ((Registry.ofSchema schema).message? name).isSome) ∧
      (field.type.Mentions (.enum name) → ((Registry.ofSchema schema).enum? name).isSome)) ∧
    ∀ message field type, .unresolvedType message field type ∉ schema.violations := by
  have resolves {type : MessageType} (held : type ∈ schema.allMessages) {field : Field}
      (declared : field ∈ type.fields) {part : FieldType} (inside : field.type.Mentions part) :
      (Registry.ofSchema schema).resolves part := resolves_of_mentions built held declared inside
  refine ⟨fun type held field declared name =>
    ⟨fun inside => resolves held declared inside, fun inside => resolves held declared inside⟩, ?_⟩
  intro message field type reported
  -- Validation looks at the types of all fields, those of entry messages included.
  have everywhere {type : MessageType} (held : type ∈ schema.types) {field : Field}
      (declared : field ∈ type.fields) : (Registry.ofSchema schema).resolves field.type := by
    obtain ⟨outer, outermost, rfl | entry⟩ := Schema.mem_types_iff.1 held
    · exact resolves outermost declared (.self _)
    · obtain ⟨mapped, among, here⟩ := List.mem_flatMap.1 entry
      exact resolves outermost among (FieldType.mentions_of_mem_entryMessages here declared)
  rcases Schema.mem_violations_iff.1 reported with ⟨breaks, -⟩ | ⟨path, -, same⟩
  · cases breaks with
    | message held breaks =>
      cases breaks with
      | field declared breaks =>
        have resolved := everywhere held declared
        cases breaks with
        | enum kind broken => simp [kind, Registry.resolves, broken] at resolved
        | message kind broken => simp [kind, Registry.resolves, broken] at resolved
    | enum held breaks => cases breaks
  · cases same

/-- A file that declares full names twice: an enum and a message `A.B`, the latter under a dotted
name, and a message and an enum `C`. -/
def FileDeclaration.clashing : FileDeclaration where
  messages :=
    [{ name := "A"
       fields := [{ name := "x", number := 1, type := "map<string, B>" },
         { name := "y", number := 2, type := "C" }]
       enums := [{ name := "B" }] },
     { name := "A.B" }, { name := "C" }]
  enums := [{ name := "C" }]

/-- What `FileDeclaration.clashing` declares. The values of the map are messages, and the other
field is an enum, each of them declared last. -/
def Schema.clashing : Schema where
  messages :=
    [{ name := "A"
       fields := [{ name := "x", tag := 1, type := .map (.builtin .string) (.message "A.B") },
         { name := "y", tag := 2, type := .enum "C" }]
       nestedEnums := [{ name := "A.B" }] },
     { name := "A.B" }, { name := "C" }]
  enums := [{ name := "C" }]

theorem FileDeclaration.build_clashing : clashing.build = .ok .clashing := by
  have scopes : Name.enclosing "A" = ["A", ""] := by simp [Name.enclosing, Name.outer]
  have inner : Reference.fullName? clashing.knownTypes "A" ['B'] = some "A.B" := by
    simp only [Reference.fullName?, scopes]
    with_unfolding_all rfl
  have outer : Reference.fullName? clashing.knownTypes "A" ['C'] = some "C" := by
    simp only [Reference.fullName?, scopes]
    with_unfolding_all rfl
  have mapped : resolve clashing.knownTypes "A" "map<string, B>" =
      .ok (.map (.builtin .string) (.message "A.B")) := by
    have parts : Reference.mapParts? (Text.Blank.trim "map<string, B>".toList) =
      some ("string".toList, ['B']) := by decide
    rw [resolve, parts]
    dsimp only
    rw [Reference.resolveNamed, Reference.resolveNamed, inner]
    with_unfolding_all rfl
  have plain : resolve clashing.knownTypes "A" "C" = .ok (.enum "C") := by
    have trimmed : Text.Blank.trim "C".toList = ['C'] := by decide
    have single : Reference.mapParts? ['C'] = none := by decide
    rw [resolve, trimmed, single]
    dsimp only
    rw [Reference.resolveNamed, outer]
    with_unfolding_all rfl
  have messages : clashing.messages = [_, _, _] := rfl
  simp only [build, messages, MessageDeclaration.buildAll, MessageDeclaration.build,
    List.mapM_cons, List.mapM_nil, FieldDeclaration.build]
  rw [show Name.join clashing.scope "A" = "A" from rfl, mapped, plain]
  rfl

/-- The message and the enum that the fields mention are known, although their names are given
twice. -/
theorem FileDeclaration.resolves_of_build_clashing :
    ((Registry.ofSchema .clashing).message? "A.B").isSome ∧
      ((Registry.ofSchema .clashing).enum? "C").isSome ∧
      ∀ message field type, .unresolvedType message field type ∉ Schema.clashing.violations := by
  obtain ⟨named, complete⟩ := resolves_of_build build_clashing
  obtain ⟨mapped, others⟩ := List.forall_mem_cons.1 (named _ List.mem_cons_self)
  have plain := others _ List.mem_cons_self
  exact ⟨(mapped "A.B").1 (.value (.self _)), (plain "C").2 (.self _), complete⟩

end Protobuf
