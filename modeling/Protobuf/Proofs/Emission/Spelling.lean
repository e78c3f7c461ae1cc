import Protobuf.Proofs.Emission.Names
import Protobuf.Proofs.Name

/-! # How identifiers are spelled

An identifier that is made from a name is the name, with an underscore in front of it if it starts
with a digit or is empty and with some behind it. So it is legal exactly if the name is spelled with
letters, digits and underscores. Main statements: `Derived.isLegal_iff`, and for each kind of
identifier that it is derived from a name.

## Main definitions

* `IsLegal`: a text can be an identifier of the emitted module.
* `Derived`: an identifier is made from a name.

## Implementation notes

Identifiers are given out by folds that also keep what is taken. What they are derived from does not
depend on that, so the invariants here say nothing about it. -/

namespace Protobuf.Emission

open Name

/-- A text that can be an identifier: it is spelled like one and no keyword. -/
def IsLegal (text : String) : Prop :=
  isIdentifier text ∧ text ∉ keywords

instance (text : String) : Decidable (IsLegal text) :=
  inferInstanceAs (Decidable (_ ∧ _))

/-! ## Identifiers made from a name -/

/-- A character starts an identifier if it goes on one and is no digit. -/
theorem startsIdentifier_iff {c : Char} :
    startsIdentifier c ↔ continuesIdentifier c ∧ ('0' ≤ c && c ≤ '9') = false := by
  constructor
  · intro starts
    have continues := continues_of_starts starts
    have other := of_continues (fun c => startsIdentifier c → ('0' ≤ c && c ≤ '9') = false)
      (by decide) continues
    exact ⟨continues, other starts⟩
  · rintro ⟨continues, other⟩
    rwa [continuesIdentifier, other, Bool.or_false] at continues

/-- Identifiers are spelled texts that start with no digit, and not empty. -/
theorem isIdentifierChars_iff_spelled {text : List Char} :
    isIdentifierChars text ↔ Spelled text ∧ text ≠ [] ∧ startsWithDigit text = false := by
  cases text with
  | nil => simp [isIdentifierChars]
  | cons first rest =>
    rw [isIdentifierChars, Bool.and_eq_true, List.all_eq_true, startsIdentifier_iff]
    simp only [Spelled, List.forall_mem_cons, startsWithDigit, List.head?_cons, Option.any_some,
      ne_eq, reduceCtorEq, not_false_eq_true, true_and]
    exact and_right_comm

/-- An underscore behind an identifier leaves it one. -/
theorem isIdentifier_append_underscore {text : String} (some : text ≠ "") :
    isIdentifier (text ++ "_") ↔ isIdentifier text := by
  obtain ⟨first, rest, letters⟩ := List.exists_cons_of_ne_nil (mt String.toList_eq_nil_iff.1 some)
  simp only [isIdentifier, String.toList_append, letters, List.cons_append, isIdentifierChars,
    List.all_append, Bool.and_eq_true]
  exact and_congr_right fun _ => and_iff_left (by decide)

theorem isIdentifier_escape_iff (name : String) :
    isIdentifier (escape name) ↔ Spelled name.toList := by
  simp only [escape]
  -- The text in front of the test for keywords.
  generalize front : (if name = "" || startsWithDigit name.toList then "_" ++ name else name) = text
  have some : text ≠ "" ∧ (isIdentifier text ↔ Spelled name.toList) := by
    subst front
    split
    · refine ⟨by simp, ?_⟩
      rw [isIdentifier, String.toList_append, isIdentifierChars_iff_spelled]
      simp [Spelled, startsWithDigit, continuesIdentifier, startsIdentifier]
    · rename_i plain
      simp only [Bool.or_eq_true, decide_eq_true_eq, not_or, Bool.not_eq_true] at plain
      refine ⟨plain.1, ?_⟩
      rw [isIdentifier, isIdentifierChars_iff_spelled]
      exact and_iff_left ⟨mt String.toList_eq_nil_iff.1 plain.1, plain.2⟩
  rw [← some.2]
  split
  · exact isIdentifier_append_underscore some.1
  · rfl

/-- An identifier is made from a name, with some underscores behind it. -/
def Derived (name identifier : String) : Prop :=
  ∃ count, identifier = underscored (escape name) count

variable {name identifier : String} {taken : KeySet String}

theorem derived_escape (name : String) : Derived name (escape name) :=
  ⟨0, (underscored_zero _).symm⟩

/-- A free identifier is made from the same name. -/
theorem Derived.claim (derived : Derived name identifier) (taken : KeySet String) :
    Derived name (claim taken identifier).1 := by
  obtain ⟨count, rfl⟩ := derived
  obtain ⟨more, -, free, -⟩ := freeIdentifier_spec taken (underscored (escape name) count)
  refine ⟨count + more, ?_⟩
  rw [Emission.claim, free, underscored, underscored, underscored, String.toList_ofList,
    List.append_assoc, List.replicate_append_replicate]

theorem derived_claim (taken : KeySet String) (name : String) :
    Derived name (claim taken (escape name)).1 :=
  (derived_escape name).claim taken

/-- An identifier is legal exactly if the name that it is made from is spelled with letters, digits
and underscores. -/
theorem Derived.isLegal_iff (derived : Derived name identifier) :
    IsLegal identifier ↔ Spelled name.toList := by
  obtain ⟨count, rfl⟩ := derived
  have word := isWord_escape name
  rw [IsLegal, and_iff_left (word.underscored count).2, ← isIdentifier_escape_iff]
  induction count with
  | zero => rw [underscored_zero]
  | succ count ih =>
    rw [underscored_succ, isIdentifier_append_underscore (word.underscored count).1]
    exact ih

/-! ## Letter cases -/

theorem spelled_snake (spelled : Spelled name.toList) : Spelled (snake name).toList := by
  rw [snake, String.toList_ofList]
  exact spelled.snakeAfter

theorem spelled_pascal (spelled : Spelled name.toList) : Spelled (pascal name).toList := by
  rw [pascal, String.toList_ofList]
  exact spelled.pascalChars

theorem spelled_upper (spelled : Spelled name.toList) : Spelled (upper name).toList := by
  rw [upper, String.toList_ofList]
  exact spelled.upperAll

/-! ## Types and groups -/

/-- The parts of a full name below a package in Pascal case, one after the other. -/
def typeSpelling (package fullName : String) : String :=
  String.ofList ((splitOn '.' (localName package fullName)).flatMap pascalChars)

/-- The identifiers of types are derived from their names below the package. -/
theorem derived_nameTypes (package : String) (fullNames : List String) {fullName : String}
    (found : (nameTypes package fullNames).1.get? fullName = some identifier) :
    Derived (typeSpelling package fullName) identifier := by
  induction fullNames using List.reverseRecOn with
  | nil => simp [nameTypes] at found
  | append_singleton front last ih =>
    rw [nameTypes_concat] at found
    rcases Table.eq_or_of_get?_insert found with ⟨rfl, rfl⟩ | before
    · exact derived_claim _ _
    · exact ih before

/-- The identifiers of groups are derived from those of their messages, with the group behind. -/
theorem derived_claimGroups (names : Names) (groups : List (String × String)) :
    ∀ entry ∈ (groups.foldl (claimGroup names) ([], taken)).1,
      Derived (names.typeName entry.1.1 ++ pascal entry.1.2) entry.2 := by
  induction groups using List.reverseRecOn with
  | nil => exact fun entry held => absurd held List.not_mem_nil
  | append_singleton front group ih =>
    rw [List.foldl_append]
    generalize front.foldl (claimGroup names) ([], taken) = result at ih
    refine List.forall_mem_append.2 ⟨ih, List.forall_mem_singleton.2 ?_⟩
    exact derived_claim _ _

theorem derived_typeName (registry : Registry) (package fullName : String) :
    Derived (typeSpelling package fullName) ((Names.of registry package).typeName fullName) := by
  rw [Names.of_eq, Names.typeName]
  cases found : (nameTypes package (registry.messages.keys ++ registry.enums.keys)).1.get?
    fullName with
  | none => exact derived_escape _
  | some identifier => exact derived_nameTypes package _ found

theorem derived_oneofName (registry : Registry) (package message group : String) :
    Derived ((Names.of registry package).typeName message ++ pascal group)
      ((Names.of registry package).oneofName message group) := by
  rw [Names.oneofName]
  cases found : (Names.of registry package).oneofs.lookup (message, group) with
  | none => exact derived_escape _
  | some identifier =>
    rw [Names.of_eq] at found
    obtain ⟨front, back, split, -⟩ := List.lookup_eq_some_iff.1 found
    exact derived_claimGroups ⟨package, _, []⟩ _ _
      (split ▸ List.mem_append_right _ List.mem_cons_self)

/-! ## Values of enums -/

/-- The identifiers of an enum are derived from the names of its values, in one case or the
other. -/
theorem derived_enumItems (variants : List (Int32 × String)) (values : List EnumValue) :
    ∀ item ∈ enumItems taken variants values, ∃ value ∈ values,
      Derived (pascal value.name) item.identifier ∨
        Derived (upper (snake value.name)) item.identifier := by
  induction values generalizing taken variants with
  | nil => exact fun item held => absurd held List.not_mem_nil
  | cons value rest ih =>
    have later (taken : KeySet String) (variants : List (Int32 × String)) :
        ∀ item ∈ enumItems taken variants rest, ∃ other ∈ value :: rest,
          Derived (pascal other.name) item.identifier ∨
            Derived (upper (snake other.name)) item.identifier := by
      intro item held
      obtain ⟨other, among, derived⟩ := ih variants item held
      exact ⟨other, List.mem_cons_of_mem _ among, derived⟩
    unfold enumItems
    split
    · exact List.forall_mem_cons.2
        ⟨⟨value, List.mem_cons_self, .inr (derived_claim _ _)⟩, later _ _⟩
    · exact List.forall_mem_cons.2
        ⟨⟨value, List.mem_cons_self, .inl (derived_claim _ _)⟩, later _ _⟩

/-! ## Fields -/

/-- The identifiers of a field are derived from its name, but the one of the structure from that of
its group if it is in one. -/
structure Member.DerivedFrom (field : Field) (member : Member) : Prop where
  identifier : Derived (snake (field.oneof.getD field.name)) member.identifier
  variant : ∀ variant, member.variant = some variant → Derived (pascal field.name) variant
  getter : ∀ getter, member.getter = some getter → Derived (snake field.name) getter

namespace MemberNames

/-- The identifiers of a structure are derived from its groups and fields. -/
structure Spelling (fields : List Field) (names : MemberNames) : Prop where
  groups : ∀ group identifier, names.groups.get? group = some identifier →
    Derived (snake group) identifier
  members : ∀ tag member, names.members.get? tag = some member →
    ∃ field ∈ fields, field.tag = tag ∧ member.DerivedFrom field

variable {fields : List Field} {names : MemberNames}

/-- A field that is added has the identifiers it is given, and the others keep theirs. -/
theorem Spelling.insert (spelling : Spelling fields names) {field : Field} {member : Member}
    (derived : member.DerivedFrom field) : ∀ tag found,
      (names.members.insert field.tag member).get? tag = some found →
        ∃ field' ∈ fields ++ [field], field'.tag = tag ∧ found.DerivedFrom field' := by
  intro tag found there
  rcases Table.eq_or_of_get?_insert there with ⟨rfl, rfl⟩ | before
  · exact ⟨field, List.mem_append_right _ List.mem_cons_self, rfl, derived⟩
  · obtain ⟨field', among, rest⟩ := spelling.members tag found before
    exact ⟨field', List.mem_append_left _ among, rest⟩

/-- The field of a group is derived from the group, and the members stay as they are. -/
theorem Spelling.groupField (spelling : Spelling fields names) (group : String) :
    Derived (snake group) (names.groupField group).1 ∧
      Spelling fields (names.groupField group).2 := by
  unfold MemberNames.groupField
  split
  · rename_i identifier found
    exact ⟨spelling.groups group identifier found, spelling⟩
  · have derived := derived_claim names.fields (snake group)
    refine ⟨derived, ⟨fun other identifier found => ?_, spelling.members⟩⟩
    rcases Table.eq_or_of_get?_insert found with ⟨rfl, rfl⟩ | before
    · exact derived
    · exact spelling.groups other identifier before

theorem Spelling.add (spelling : Spelling fields names) (field : Field) :
    Spelling (fields ++ [field]) (names.add field) := by
  unfold MemberNames.add
  cases grouped : field.oneof with
  | some group =>
    obtain ⟨derived, after⟩ := spelling.groupField group
    refine ⟨after.groups, after.insert ⟨by rwa [grouped, Option.getD_some], ?_, nofun⟩⟩
    intro variant named
    exact Option.some.inj named ▸ derived_claim _ _
  | none =>
    have derived : Derived (snake (field.oneof.getD field.name))
        (claim names.fields (fieldIdentifier field.name)).1 := by
      rw [grouped, Option.getD_none]
      exact derived_claim _ _
    cases field.default with
    | none => exact ⟨spelling.groups, spelling.insert ⟨derived, nofun, nofun⟩⟩
    | some default =>
      refine ⟨spelling.groups, spelling.insert ⟨derived, nofun, ?_⟩⟩
      intro getter named
      exact Option.some.inj named ▸ (derived_claim _ _).claim _

theorem spelling_foldl_add (fields : List Field) :
    Spelling fields (fields.foldl MemberNames.add {}) := by
  induction fields using List.reverseRecOn with
  | nil => exact ⟨nofun, nofun⟩
  | append_singleton front field ih =>
    rw [List.foldl_append]
    exact ih.add field

end MemberNames

/-- With distinct tags, the identifiers under the tag of a field are derived from the field. -/
theorem derivedFrom_membersOf {type : MessageType} (tagged : (type.fields.map (·.tag)).Nodup)
    {field : Field} (declared : field ∈ type.fields) {member : Member}
    (found : (membersOf type).get? field.tag = some member) : member.DerivedFrom field := by
  obtain ⟨other, declared', same, derived⟩ :=
    (MemberNames.spelling_foldl_add type.fields).members _ _ found
  rwa [List.inj_on_of_nodup_map tagged declared' declared same] at derived

end Protobuf.Emission
