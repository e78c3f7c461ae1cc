import Protobuf.Emission.Module
import Protobuf.Proofs.Codec.Lawful
import Protobuf.Proofs.Emission.Spelling
import Protobuf.Proofs.Schema.Below

/-! # Which emitted identifiers are legal

The names of fields and of values of enums are identifiers in an accepted schema, and so are the
last parts of the names of types. No rule is about the package and the groups, or about the other
parts of a name that is declared with dots in it. Main statement: `identifiers_legal_iff`, by which
exactly these names can make an identifier that is not legal.

## Main definitions

* `FromChecked`: the identifiers that are made from names of fields and values.
* `FromUnchecked`: the other identifiers, each with the name that it is made from. -/

namespace Protobuf.Emission

open Name Reference

/-- What is left of a name below a package is its path. -/
theorem localName_join (package path : String) :
    localName package (join package path) = path.toList := by
  by_cases root : package = ""
  · simp [localName, Name.join, root]
  · have whole : (join package path).toList = (package.toList ++ ['.']) ++ path.toList := by
      rw [toList_join_of_ne root, List.append_assoc, List.singleton_append]
    have inside : (package.toList ++ ['.']).isPrefixOf (join package path).toList := by
      rw [whole, List.isPrefixOf_iff_prefix]
      exact List.prefix_append _ _
    simp only [localName, root, inside, ne_eq, not_false_eq_true, decide_true, Bool.and_self,
      if_true]
    rw [whole, List.drop_left]

/-- Identifiers of types below their package are made from identifiers. -/
theorem spelled_typeSpelling {package fullName : String} (below : Below package fullName) :
    Spelled (typeSpelling package fullName).toList := by
  obtain ⟨path, rfl, isPath⟩ := below
  rw [typeSpelling, String.toList_ofList, localName_join]
  intro c held
  obtain ⟨part, among, inside⟩ := List.mem_flatMap.1 held
  have valid := List.all_eq_true.1 (all_splitOn_iff.2 isPath) part among
  exact (spelled_of_isIdentifierChars valid).pascalChars c inside

/-! ## The identifiers of a module -/

/-- The identifiers of the module of a schema. -/
def namesOf (schema : Schema) : Names :=
  .of (.ofSchema schema) schema.scope

/-- An identifier that is made from the name of a field or of a value of an enum. -/
inductive FromChecked (schema : Schema) : String → Prop
  | field {type : MessageType} {field : Field} {member : Member}
    (held : type ∈ (Registry.ofSchema schema).messages.values) (declared : field ∈ type.fields)
    (plain : field.oneof = none) (found : (membersOf type).get? field.tag = some member) :
    FromChecked schema member.identifier
  | variant {type : MessageType} {field : Field} {member : Member} {variant : String}
    (held : type ∈ (Registry.ofSchema schema).messages.values) (declared : field ∈ type.fields)
    (found : (membersOf type).get? field.tag = some member)
    (named : member.variant = some variant) : FromChecked schema variant
  | getter {type : MessageType} {field : Field} {member : Member} {getter : String}
    (held : type ∈ (Registry.ofSchema schema).messages.values) (declared : field ∈ type.fields)
    (found : (membersOf type).get? field.tag = some member)
    (named : member.getter = some getter) : FromChecked schema getter
  | value {type : EnumType} {item : EnumItem}
    (held : type ∈ (Registry.ofSchema schema).enums.values)
    (among : item ∈ enumItems .empty [] type.values) : FromChecked schema item.identifier

/-- An identifier that is made from a name which the package, a full name or a group is part of, and
this name, in the letter case of the identifier. -/
inductive FromUnchecked (schema : Schema) : String → String → Prop
  | module {package : String} (declared : schema.package = some package) :
    FromUnchecked schema (moduleIdentifier package)
      (snake (package.map fun c => if c = '.' then '_' else c))
  | message {type : MessageType} (held : type ∈ (Registry.ofSchema schema).messages.values) :
    FromUnchecked schema ((namesOf schema).typeName type.name)
      (typeSpelling schema.scope type.name)
  | enum {type : EnumType} (held : type ∈ (Registry.ofSchema schema).enums.values) :
    FromUnchecked schema ((namesOf schema).typeName type.name)
      (typeSpelling schema.scope type.name)
  | group {type : MessageType} {field : Field} {group : String}
    (held : type ∈ (Registry.ofSchema schema).messages.values) (declared : field ∈ type.fields)
    (grouped : field.oneof = some group) :
    FromUnchecked schema ((namesOf schema).oneofName type.name group)
      ((namesOf schema).typeName type.name ++ pascal group)
  | groupField {type : MessageType} {field : Field} {group : String} {member : Member}
    (held : type ∈ (Registry.ofSchema schema).messages.values) (declared : field ∈ type.fields)
    (grouped : field.oneof = some group)
    (found : (membersOf type).get? field.tag = some member) :
    FromUnchecked schema member.identifier (snake group)

section Lawful

variable {schema : Schema} {identifier name : String}

/-- The enums of the registry are enums of the schema. -/
theorem mem_allEnums_of_registered {type : EnumType}
    (held : type ∈ (Registry.ofSchema schema).enums.values) : type ∈ schema.allEnums := by
  obtain ⟨name, found⟩ := Table.mem_values_iff.1 held
  exact List.mem_of_find?_eq_some ((Schema.enum?_ofSchema name).symm.trans found)

/-- The messages of the registry keep the rules of a schema that keeps them. -/
theorem wellFormed_of_registered (formed : schema.WellFormed) {type : MessageType}
    (held : type ∈ (Registry.ofSchema schema).messages.values) :
    type.WellFormed (.ofSchema schema) :=
  formed.messages type
    (Schema.mem_types_of_mem_allMessages (Schema.mem_allMessages_of_registered held))

/-- Identifiers that are made from checked names are legal. -/
theorem FromChecked.isLegal (formed : schema.WellFormed) (made : FromChecked schema identifier) :
    IsLegal identifier := by
  cases made with
  | field held declared plain found =>
    have rules := wellFormed_of_registered formed held
    have derived := (derivedFrom_membersOf rules.tags declared found).identifier
    rw [plain, Option.getD_none] at derived
    exact derived.isLegal_iff.2 (spelled_snake
      (spelled_of_isIdentifierChars (rules.fields _ declared).identifier))
  | variant held declared found named =>
    have rules := wellFormed_of_registered formed held
    have derived := (derivedFrom_membersOf rules.tags declared found).variant _ named
    exact derived.isLegal_iff.2 (spelled_pascal
      (spelled_of_isIdentifierChars (rules.fields _ declared).identifier))
  | getter held declared found named =>
    have rules := wellFormed_of_registered formed held
    have derived := (derivedFrom_membersOf rules.tags declared found).getter _ named
    exact derived.isLegal_iff.2 (spelled_snake
      (spelled_of_isIdentifierChars (rules.fields _ declared).identifier))
  | value held among =>
    have rules := formed.enums _ (mem_allEnums_of_registered held)
    obtain ⟨value, declared, derived⟩ := derived_enumItems [] _ _ among
    have spelled := spelled_of_isIdentifierChars (rules.identifiers value declared)
    rcases derived with derived | derived
    · exact derived.isLegal_iff.2 (spelled_pascal spelled)
    · exact derived.isLegal_iff.2 (spelled_upper (spelled_snake spelled))

/-- Identifiers that are made from other names are derived from them. -/
theorem FromUnchecked.derived (formed : schema.WellFormed)
    (made : FromUnchecked schema identifier name) : Derived name identifier := by
  cases made with
  | module => exact derived_escape _
  | message | enum => exact derived_typeName _ _ _
  | group => exact derived_oneofName _ _ _ _
  | groupField held declared grouped found =>
    have derived := (derivedFrom_membersOf (wellFormed_of_registered formed held).tags declared
      found).identifier
    rwa [grouped, Option.getD_some] at derived

/-- Where full names are below the package, and the package and the groups are spelled with letters,
digits and underscores, identifiers that are made from them are legal. -/
theorem FromUnchecked.isLegal_of_spelled (formed : schema.WellFormed)
    (messages : ∀ type ∈ schema.allMessages, Below schema.scope type.name)
    (enums : ∀ type ∈ schema.allEnums, Below schema.scope type.name)
    (package : ∀ package, schema.package = some package →
      ∀ c ∈ package.toList, continuesIdentifier c ∨ c = '.')
    (groups : ∀ type ∈ schema.allMessages, ∀ field ∈ type.fields, ∀ group,
      field.oneof = some group → Spelled group.toList)
    (made : FromUnchecked schema identifier name) : IsLegal identifier := by
  rw [(made.derived formed).isLegal_iff]
  have typeNames {type : MessageType}
      (held : type ∈ (Registry.ofSchema schema).messages.values) :
      Spelled (typeSpelling schema.scope type.name).toList :=
    spelled_typeSpelling (messages type (Schema.mem_allMessages_of_registered held))
  cases made with
  | @module name declared =>
    refine spelled_snake fun c held => ?_
    rw [String.toList_map] at held
    obtain ⟨d, among, rfl⟩ := List.mem_map.1 held
    split
    · decide
    · rename_i other
      exact (package name declared d among).resolve_right other
  | message held => exact typeNames held
  | enum held => exact spelled_typeSpelling (enums _ (mem_allEnums_of_registered held))
  | @group type field group held declared grouped =>
    have legal := (derived_typeName (.ofSchema schema) schema.scope type.name).isLegal_iff.2
      (typeNames held)
    rw [String.toList_append]
    exact List.forall_mem_append.2 ⟨spelled_of_isIdentifierChars legal.1, spelled_pascal
      (groups type (Schema.mem_allMessages_of_registered held) field declared group grouped)⟩
  | groupField held declared grouped =>
    exact spelled_snake
      (groups _ (Schema.mem_allMessages_of_registered held) _ declared _ grouped)

end Lawful

/-- The identifiers of the module of an accepted schema that are made from the names of fields and
of values of enums are legal. Any other one is legal exactly if the name that it is made from is
spelled with letters, digits and underscores. So all are legal where no declared name has a dot and
where, dots apart, the package and the groups are spelled like this. -/
theorem identifiers_legal_iff {text : String} {config : Config} {compiled : Compiled}
    (accepted : compile text config = .ok compiled) :
    (∀ identifier, FromChecked compiled.schema identifier → IsLegal identifier) ∧
    (∀ identifier name, FromUnchecked compiled.schema identifier name →
      (IsLegal identifier ↔ Spelled name.toList)) ∧
    ∀ file, FileDeclaration.ofJson text = .ok file → (∀ name ∈ file.names, Undotted name) →
      (∀ package, compiled.schema.package = some package →
        ∀ c ∈ package.toList, continuesIdentifier c ∨ c = '.') →
      (∀ type ∈ compiled.schema.allMessages, ∀ field ∈ type.fields, ∀ group,
        field.oneof = some group → Spelled group.toList) →
      ∀ identifier name, FromUnchecked compiled.schema identifier name → IsLegal identifier := by
  obtain ⟨schema, read, lawful, rfl⟩ := compile_eq_ok_iff.1 accepted
  have formed := Schema.violations_eq_nil_iff.1 lawful
  refine ⟨fun identifier made => made.isLegal formed,
    fun identifier name made => (made.derived formed).isLegal_iff, ?_⟩
  intro file declared undotted package groups identifier name made
  have built : file.build = .ok schema := by
    rw [readSchema, declared] at read
    change file.build.mapError _ = _ at read
    cases done : file.build with
    | ok other =>
      rw [done] at read
      exact congrArg Except.ok (Except.ok.inj read)
    | error error =>
      rw [done] at read
      cases read
  obtain ⟨messages, enums⟩ := file.below_of_build undotted built formed
  exact made.isLegal_of_spelled formed messages enums package groups

/-- A message with one field, which is in a group. -/
def choiceType (group : String) : MessageType :=
  let fields := [{ name := "a", tag := 1, type := .builtin .int32, oneof := some group }]
  { name := "M", fields, oneofs := .ofFields [] fields }

/-- The schema of the message. -/
def choiceSchema (group : String) : Schema :=
  { messages := [choiceType group] }

/-- The text that declares the message with a group "end". -/
def plainText : String :=
  "[null,[[\"M\",[[\"a\",1,\"int32\",\"singular\",\"end\"]]]]]"

set_option maxRecDepth 10000 in
/-- All identifiers of the module of a message with a group "end" are legal. -/
theorem identifiers_legal_choice : ∃ compiled, compile plainText {} = .ok compiled ∧
    FromUnchecked compiled.schema "MEnd" "MEnd" ∧
      ∀ identifier, (FromChecked compiled.schema identifier ∨
        ∃ name, FromUnchecked compiled.schema identifier name) → IsLegal identifier := by
  have read : readSchema plainText = .ok (choiceSchema "end") := by decide +kernel
  have accepted : compile plainText {} = .ok ⟨choiceSchema "end", _⟩ :=
    compile_eq_ok_iff.2 ⟨_, read, by decide, rfl⟩
  obtain ⟨checked, -, unchecked⟩ := identifiers_legal_iff accepted
  have undotted {file : FileDeclaration} (declared : FileDeclaration.ofJson plainText = .ok file) :
      ∀ name ∈ file.names, Undotted name := by
    have names : (FileDeclaration.ofJson plainText).toOption.map (·.names) = some ["M"] := by
      decide +kernel
    rw [declared] at names
    have named : file.names = ["M"] := Option.some.inj names
    rw [named]
    unfold Undotted
    decide
  have package : ∀ package, (choiceSchema "end").package = some package →
      ∀ c ∈ package.toList, continuesIdentifier c ∨ c = '.' := by
    intro package some
    cases some
  have groups : ∀ type ∈ (choiceSchema "end").allMessages, ∀ field ∈ type.fields, ∀ group,
      field.oneof = some group → Spelled group.toList := by
    have spelled : ∀ type ∈ (choiceSchema "end").allMessages, ∀ field ∈ type.fields,
        ∀ group ∈ field.oneof, group.toList.all continuesIdentifier := by decide
    exact fun type held field among group grouped =>
      List.all_eq_true.1 (spelled type held field among group grouped)
  have held : choiceType "end" ∈ (Registry.ofSchema (choiceSchema "end")).messages.values :=
    List.mem_cons_self
  refine ⟨_, accepted, .group held List.mem_cons_self rfl, ?_⟩
  rintro identifier (made | ⟨name, made⟩)
  · exact checked identifier made
  · cases declared : FileDeclaration.ofJson plainText with
    | ok file =>
      exact unchecked file declared (undotted declared) package groups identifier name made
    | error error =>
      rw [readSchema, declared] at read
      cases read

/-- The text that declares the message with a group "a-b". -/
def dashedText : String :=
  "[null,[[\"M\",[[\"a\",1,\"int32\",\"singular\",\"a-b\"]]]]]"

/-- A group "a-b" is accepted, and a line of the module opens the enum with its name. -/
theorem illegal_group : ∃ compiled, compile dashedText {} = .ok compiled ∧
    FromUnchecked compiled.schema "MA-b" "MA-b" ∧ ¬ IsLegal "MA-b" ∧
      "pub enum MA-b \x7b" ∈
        Source.linesAll 0 (emitSchema compiled.schema compiled.codecs) := by
  have read : readSchema dashedText = .ok (choiceSchema "a-b") := by decide +kernel
  have held : choiceType "a-b" ∈ (Registry.ofSchema (choiceSchema "a-b")).messages.values :=
    List.mem_cons_self
  exact ⟨_, compile_eq_ok_iff.2 ⟨_, read, by decide, rfl⟩, .group held List.mem_cons_self rfl,
    by decide, by decide +kernel⟩

end Protobuf.Emission
