import Protobuf.Proofs.Schema.Rules

/-! # Validation is exact

Validation reports nothing but broken rules, and each broken rule with one exception: whether a
default fits is looked at only where the field may have one. Main statements:
`Schema.mem_violations_iff`, `Schema.violations_eq_nil_iff`, `Schema.violations_exact` and
`Schema.circles_exact`. -/

namespace Protobuf

open Relation

/-- Whether a default does not fit the type of its field. -/
def Violation.isMisfit : Violation → Bool
  | .defaultTypeMismatch _ _ _ => true
  | _ => false

theorem EnumType.Breaks.isMisfit_eq_false {type : EnumType} {violation : Violation}
    (breaks : type.Breaks violation) : violation.isMisfit = false := by
  cases breaks <;> rfl

namespace Validate

theorem mem_when_iff {broken : Bool} {candidate violation : Violation} :
    violation ∈ Violation.when broken candidate ↔ broken ∧ violation = candidate := by
  cases broken <;> simp [Violation.when]

/-- A rule that is run on each item reports what it reports of some item behind the others. -/
theorem mem_withEarlier_iff {α : Type} {rule : List α → α → List Violation} {earlier items : List α}
    {violation : Violation} : violation ∈ withEarlier rule earlier items ↔
      ∃ before item after, items = before ++ item :: after ∧
        violation ∈ rule (before.reverse ++ earlier) item := by
  induction items generalizing earlier with
  | nil => simp [withEarlier]
  | cons head rest ih =>
    rw [withEarlier, List.mem_append, ih]
    constructor
    · rintro (here | ⟨before, item, after, rfl, reported⟩)
      · exact ⟨[], head, rest, rfl, here⟩
      · exact ⟨head :: before, item, after, rfl, by simpa using reported⟩
    · rintro ⟨_ | ⟨first, before⟩, item, after, split, reported⟩
      · cases split
        exact .inl reported
      · cases split
        exact .inr ⟨before, item, after, rfl, by simpa using reported⟩

/-- An item occurs twice exactly if it stands behind another one of its kind. -/
theorem duplicate_iff_split {name : String} {names : List String} :
    List.Duplicate name names ↔
      ∃ before after, names = before ++ name :: after ∧ name ∈ before := by
  induction names with
  | nil => simp
  | cons head rest ih =>
    rw [List.duplicate_cons_iff]
    constructor
    · rintro (⟨rfl, again⟩ | later)
      · obtain ⟨before, after, rfl⟩ := List.append_of_mem again
        exact ⟨head :: before, after, rfl, List.mem_cons_self⟩
      · obtain ⟨before, after, rfl, held⟩ := ih.1 later
        exact ⟨head :: before, after, rfl, List.mem_cons_of_mem _ held⟩
    · rintro ⟨_ | ⟨first, before⟩, after, split, held⟩
      · cases held
      · cases split
        rcases List.mem_cons.1 held with rfl | later
        · exact .inl ⟨rfl, by simp⟩
        · exact .inr (ih.2 ⟨before, after, rfl, later⟩)

theorem mem_distinct_iff {scope : String} {names : List String} {violation : Violation} :
    violation ∈ distinct scope names ↔
      ∃ name, List.Duplicate name names ∧ violation = .duplicateNestedName scope name := by
  simp only [distinct, mem_withEarlier_iff, mem_when_iff, List.append_nil, List.contains_reverse,
    List.contains_iff_mem, duplicate_iff_split]
  constructor
  · rintro ⟨before, name, after, split, held, rfl⟩
    exact ⟨name, ⟨before, after, split, held⟩, rfl⟩
  · rintro ⟨name, ⟨before, after, split, held⟩, rfl⟩
    exact ⟨before, name, after, split, held, rfl⟩

/-! ## Fields -/

section Fields

variable {registry : Registry} {reserved : Reserved} {message : String} {item : Field}
  {violation : Violation}

theorem hasNumber_iff {number : Int} : reserved.hasNumber number ↔
    ∃ range ∈ reserved.ranges, range.first ≤ number ∧ number ≤ range.last := by
  simp [Reserved.hasNumber]

/-- A tag is out of range exactly if it does not fit in 29 bits or is zero. -/
theorem outOfRange_iff {tag : Nat} :
    (tag < 1 || Wire.maxTag < tag) ↔ ¬(1 ≤ tag ∧ tag < 2 ^ 29) := by
  rw [Bool.or_eq_true, decide_eq_true_iff, decide_eq_true_iff, Wire.maxTag]
  omega

theorem isSetAside_iff {tag : Nat} : Wire.isSetAside tag ↔ ¬(tag < 19000 ∨ 19999 < tag) := by
  simp only [Wire.isSetAside, Bool.and_eq_true, decide_eq_true_iff]
  omega

theorem breaks_of_mem_labels (reported : violation ∈ labels reserved message item) :
    item.Breaks registry reserved message violation ∧ violation.isMisfit = false := by
  simp only [labels, identifier, List.mem_append, mem_when_iff] at reported
  obtain (((⟨broken, rfl⟩ | ⟨broken, rfl⟩) | ⟨broken, rfl⟩) | ⟨broken, rfl⟩) | ⟨broken, rfl⟩ :=
    reported
  · exact ⟨.identifier (by simpa using broken), rfl⟩
  · exact ⟨.range (outOfRange_iff.1 broken), rfl⟩
  · exact ⟨.setAside (isSetAside_iff.1 broken), rfl⟩
  · obtain ⟨range, held, within⟩ := hasNumber_iff.1 broken
    exact ⟨.reservedTag held within, rfl⟩
  · exact ⟨.reservedName broken, rfl⟩

theorem breaks_of_mem_typed (reported : violation ∈ typed registry message item) :
    item.Breaks registry reserved message violation ∧ violation.isMisfit = false := by
  unfold typed at reported
  split at reported
  · rename_i key value kind
    simp only [List.mem_append, mem_when_iff] at reported
    obtain (⟨broken, rfl⟩ | ⟨broken, rfl⟩) | ⟨broken, rfl⟩ := reported
    · exact ⟨.mapCardinality kind (of_decide_eq_true broken), rfl⟩
    · have unfit : ¬key.IsKey := fun key => by simp [FieldType.isValidMapKey_iff.2 key] at broken
      exact ⟨.mapKey kind unfit, rfl⟩
    · exact ⟨.mapValue kind broken, rfl⟩
  · obtain ⟨broken, rfl⟩ := mem_when_iff.1 reported
    cases kind : item.type with
    | enum name =>
      have unknown : registry.enum? name = none := by simpa [kind, Registry.resolves] using broken
      exact ⟨.enum kind unknown, rfl⟩
    | message name =>
      have unknown : registry.message? name = none := by
        simpa [kind, Registry.resolves] using broken
      exact ⟨.message kind unknown, rfl⟩
    | _ => simp [kind, Registry.resolves] at broken

theorem breaks_of_mem_counted (reported : violation ∈ counted message item) :
    item.Breaks registry reserved message violation ∧ violation.isMisfit = false := by
  simp only [counted, List.mem_append, mem_when_iff, Bool.and_eq_true, decide_eq_true_iff]
    at reported
  obtain ⟨⟨kind, broken⟩, rfl⟩ | ⟨⟨grouped, broken⟩, rfl⟩ := reported
  · have unfit : ¬item.type.IsNumeric := fun numeric => by
      simp [FieldType.isPackable_iff.2 numeric] at broken
    exact ⟨.packed kind unfit, rfl⟩
  · refine ⟨.member (Option.isSome_iff_ne_none.1 grouped) ?_, rfl⟩
    simpa [imp_iff_not_or] using broken

theorem breaks_of_mem_defaulted (reported : violation ∈ defaulted registry message item) :
    item.Breaks registry reserved message violation ∧
      (violation.isMisfit → item.cardinality = .optional) := by
  unfold defaulted at reported
  split at reported
  · cases reported
  · rename_i default given
    split at reported
    · rename_i broken
      obtain rfl := List.mem_singleton.1 reported
      exact ⟨.presence given broken, fun misfit => by cases misfit⟩
    · rename_i optional
      obtain ⟨broken, rfl⟩ := mem_when_iff.1 reported
      have unfit : ¬default.Fits registry item.type := fun fitting => by
        simp [fits_iff.2 fitting] at broken
      exact ⟨.default given unfit, fun _ => not_not.1 optional⟩

/-- What a field breaks on its own is reported, and nothing else. That its default does not fit is
reported only where it is optional. -/
theorem mem_rules_iff : violation ∈ labels reserved message item ++ typed registry message item ++
    counted message item ++ defaulted registry message item ↔
      item.Breaks registry reserved message violation ∧
        (violation.isMisfit → item.cardinality = .optional) := by
  have plain (reported : item.Breaks registry reserved message violation ∧
      violation.isMisfit = false) : item.Breaks registry reserved message violation ∧
        (violation.isMisfit → item.cardinality = .optional) :=
    ⟨reported.1, fun misfit => by simp [reported.2] at misfit⟩
  constructor
  · intro reported
    simp only [List.mem_append] at reported
    obtain ((label | type) | count) | default := reported
    · exact plain (breaks_of_mem_labels label)
    · exact plain (breaks_of_mem_typed type)
    · exact plain (breaks_of_mem_counted count)
    · exact breaks_of_mem_defaulted default
  · rintro ⟨breaks, shown⟩
    have place : violation ∈ labels reserved message item ∨
        violation ∈ typed registry message item ∨ violation ∈ counted message item ∨
          violation ∈ defaulted registry message item := by
      cases breaks with
      | identifier broken => exact .inl (by simp [labels, identifier, mem_when_iff, broken])
      | range broken =>
        refine .inl ?_
        simp only [labels, List.mem_append, mem_when_iff, outOfRange_iff]
        exact .inl (.inl (.inl (.inr ⟨broken, trivial⟩)))
      | setAside broken => exact .inl (by simp [labels, mem_when_iff, isSetAside_iff.2 broken])
      | reservedTag held within =>
        exact .inl (by simp [labels, mem_when_iff, hasNumber_iff.2 ⟨_, held, within⟩])
      | reservedName held => exact .inl (by simp [labels, mem_when_iff, Reserved.hasName, held])
      | mapCardinality kind broken =>
        exact .inr (.inl (by simp [typed, mem_when_iff, kind, broken]))
      | mapKey kind broken =>
        have unfit := mt FieldType.isValidMapKey_iff.1 broken
        exact .inr (.inl (by simp [typed, mem_when_iff, kind, unfit]))
      | mapValue kind broken => exact .inr (.inl (by simp [typed, mem_when_iff, kind, broken]))
      | enum kind broken | message kind broken =>
        refine .inr (.inl ?_)
        simp [typed, mem_when_iff, kind, Registry.resolves, broken, FieldType.text]
      | packed kind broken =>
        have unfit := mt FieldType.isPackable_iff.1 broken
        exact .inr (.inr (.inl (by simp [counted, mem_when_iff, kind, unfit])))
      | member grouped broken =>
        have unfit := not_and_or.1 broken
        rw [not_not] at unfit
        refine .inr (.inr (.inl ?_))
        simp [counted, mem_when_iff, Option.isSome_iff_ne_none, grouped, unfit]
      | presence given broken => exact .inr (.inr (.inr (by simp [defaulted, given, broken])))
      | default given broken =>
        have unfit := mt fits_iff.1 broken
        exact .inr (.inr (.inr (by simp [defaulted, given, shown rfl, mem_when_iff, unfit])))
    simpa only [List.mem_append, or_assoc] using place

/-- Besides, a field is compared with those in front of it. -/
theorem mem_field_iff {earlier : List Field} :
    violation ∈ field registry reserved message earlier item ↔
      (∃ first, earlier.find? (·.tag = item.tag) = some first ∧
        violation = .duplicateTag message item.tag first.name item.name) ∨
      (item.name ∈ earlier.map (·.name) ∧ violation = .duplicateFieldName message item.name) ∨
      item.Breaks registry reserved message violation ∧
        (violation.isMisfit → item.cardinality = .optional) := by
  rw [← mem_rules_iff]
  simp only [field, List.mem_append, mem_when_iff, or_assoc]
  refine or_congr ?_ (or_congr_left (and_congr_left' ?_))
  · cases earlier.find? (·.tag = item.tag) <;> simp
  · simp

end Fields

/-! ## Messages -/

section Messages

variable {registry : Registry} {type : MessageType} {violation : Violation}

theorem mem_fields_iff :
    violation ∈ withEarlier (field registry type.reserved type.name) [] type.fields ↔
      (∃ before between after first second,
        type.fields = before ++ first :: between ++ second :: after ∧ first.tag = second.tag ∧
          (∀ field ∈ between, field.tag ≠ second.tag) ∧
          violation = .duplicateTag type.name second.tag first.name second.name) ∨
      (∃ name, List.Duplicate name (type.fields.map (·.name)) ∧
        violation = .duplicateFieldName type.name name) ∨
      ∃ field ∈ type.fields, field.Breaks registry type.reserved type.name violation ∧
        (violation.isMisfit → field.cardinality = .optional) := by
  simp only [mem_withEarlier_iff, mem_field_iff, List.append_nil]
  constructor
  · rintro ⟨front, item, after, split, ⟨first, found, rfl⟩ | ⟨held, rfl⟩ | breaks⟩
    · obtain ⟨same, between, before, reversed, others⟩ := List.find?_eq_some_iff_append.1 found
      refine .inl ⟨before.reverse, between.reverse, after, first, item, ?_,
        of_decide_eq_true same, ?_, rfl⟩
      · rw [split, ← List.reverse_reverse front, reversed]
        simp
      · intro field held
        simpa using others field (List.mem_reverse.1 held)
    · refine .inr (.inl ⟨item.name, duplicate_iff_split.2 ?_, rfl⟩)
      refine ⟨front.map (·.name), after.map (·.name), by simp [split], ?_⟩
      simpa using held
    · exact .inr (.inr ⟨item, by simp [split], breaks⟩)
  · rintro (⟨before, between, after, first, second, split, same, nearest, rfl⟩ | twice | breaks)
    · refine ⟨before ++ first :: between, second, after, split, .inl ⟨first, ?_, rfl⟩⟩
      rw [List.find?_eq_some_iff_append]
      refine ⟨decide_eq_true same, between.reverse, before.reverse, by simp, ?_⟩
      intro field held
      simpa using nearest field (List.mem_reverse.1 held)
    · obtain ⟨name, twice, rfl⟩ := twice
      obtain ⟨front, after, split, held⟩ := duplicate_iff_split.1 twice
      obtain ⟨fields, rest, split', rfl, here⟩ := List.map_eq_append_iff.1 split
      obtain ⟨item, others, rfl, rfl, -⟩ := List.map_eq_cons_iff.1 here
      refine ⟨fields, item, others, split', .inr (.inl ⟨?_, rfl⟩)⟩
      simpa using held
    · obtain ⟨field, held, breaks⟩ := breaks
      obtain ⟨front, after, split⟩ := List.append_of_mem held
      exact ⟨front, field, after, split, .inr (.inr breaks)⟩

theorem isEmpty_iff {tags : KeySet Nat} :
    tags.entries.isEmpty ↔ ∀ tag, ¬tags.contains tag := by
  rw [List.isEmpty_iff]
  constructor
  · intro none tag member
    simp [Table.contains, Table.get?, none] at member
  · intro broken
    refine List.eq_nil_iff_forall_not_mem.2 fun entry held => ?_
    exact broken entry.1 (Keyed.get?_isSome_of_mem held)

/-- What a group breaks is reported, given the groups in front of it. -/
theorem mem_group_iff {earlier : List (String × KeySet Nat)} {group : String} {tags : KeySet Nat} :
    violation ∈ Violation.when tags.entries.isEmpty (.emptyOneof type.name group) ++
        tags.keys.flatMap (member type group fun tag => earlier.any (·.2.contains tag)) ↔
      ((∀ tag, ¬tags.contains tag) ∧ violation = .emptyOneof type.name group) ∨
      ∃ tag, tags.contains tag ∧
        ((type.fieldTagged? tag = none ∧ violation = .oneofUnknownMember type.name group tag) ∨
        ∃ field, type.fieldTagged? tag = some field ∧
          (field.oneof ≠ some group ∨ ∃ entry ∈ earlier, entry.2.contains tag) ∧
          violation = .oneofConflict type.name field.name) := by
  rw [List.mem_append, mem_when_iff, isEmpty_iff, List.mem_flatMap]
  refine or_congr_right (exists_congr fun tag => and_congr Table.mem_keys_iff ?_)
  unfold member
  cases found : type.fieldTagged? tag with
  | none => simp
  | some field => simp [mem_when_iff]

/-- Of two groups, one stands in front of the other one. -/
theorem exists_split_of_ne {κ α : Type} {entries : List (κ × α)} {entry other : κ × α}
    (held : entry ∈ entries) (held' : other ∈ entries) (apart : entry ≠ other) :
    (∃ before after, entries = before ++ entry :: after ∧ other ∈ before) ∨
      ∃ before after, entries = before ++ other :: after ∧ entry ∈ before := by
  obtain ⟨before, after, split⟩ := List.append_of_mem held
  rw [split, List.mem_append, List.mem_cons] at held'
  rcases held' with front | rfl | back
  · exact .inl ⟨before, after, split, front⟩
  · exact absurd rfl apart
  · obtain ⟨between, rest, rfl⟩ := List.append_of_mem back
    exact .inr ⟨before ++ entry :: between, rest, by simp [split], by simp⟩

theorem breaks_of_mem_oneofs (reported : violation ∈ oneofs type) :
    type.Breaks registry violation ∧ violation.isMisfit = false := by
  rcases List.mem_append.1 reported with inGroups | inFields
  · obtain ⟨before, ⟨group, tags⟩, after, split, here⟩ := mem_withEarlier_iff.1 inGroups
    have listed : type.oneofs.get? group = some tags :=
      Table.get?_eq_some_iff.2 (by simp [split])
    obtain ⟨broken, rfl⟩ | ⟨tag, member, ⟨unknown, rfl⟩ | ⟨field, found, broken, rfl⟩⟩ :=
      mem_group_iff.1 here
    · exact ⟨.emptyGroup listed broken, rfl⟩
    · exact ⟨.unknownMember listed member (MessageType.fieldTagged?_eq_none_iff.1 unknown), rfl⟩
    · rcases broken with broken | ⟨⟨other, others⟩, front, member'⟩
      · exact ⟨.otherGroup listed member found broken, rfl⟩
      · have front : (other, others) ∈ before := by simpa using front
        have listed' : type.oneofs.get? other = some others :=
          Table.get?_eq_some_iff.2 (by simp [split, front])
        have ordered := type.oneofs.ordered
        rw [split, Keyed.Ordered, List.pairwise_append] at ordered
        have precedes := ordered.2.2 _ front _ List.mem_cons_self
        refine ⟨.twoGroups listed listed' member member' found ?_, rfl⟩
        rintro rfl
        exact KeyOrder.lt_irrefl _ precedes
  · obtain ⟨field, held, here⟩ := List.mem_flatMap.1 inFields
    cases names : field.oneof with
    | none => simp [names] at here
    | some group =>
      simp only [names, mem_when_iff] at here
      obtain ⟨broken, rfl⟩ := here
      refine ⟨.unlisted held names fun tags listed member => ?_, rfl⟩
      simp [listed, member] at broken

theorem mem_oneofs_of_group {before after : List (String × KeySet Nat)} {group : String}
    {tags : KeySet Nat} (split : type.oneofs.entries = before ++ (group, tags) :: after)
    (here : violation ∈ Violation.when tags.entries.isEmpty (.emptyOneof type.name group) ++
      tags.keys.flatMap (member type group fun tag => before.reverse.any (·.2.contains tag))) :
    violation ∈ oneofs type := by
  refine List.mem_append_left _ (mem_withEarlier_iff.2 ⟨before, (group, tags), after, split, ?_⟩)
  rwa [List.append_nil]

theorem mem_oneofs_of_twoGroups {group other : String} {tags others : KeySet Nat} {tag : Nat}
    {field : Field} (listed : type.oneofs.get? group = some tags)
    (listed' : type.oneofs.get? other = some others) (member : tags.contains tag)
    (member' : others.contains tag) (found : type.fieldTagged? tag = some field)
    (broken : group ≠ other) : .oneofConflict type.name field.name ∈ oneofs type := by
  have apart : (group, tags) ≠ (other, others) := fun same => broken (congrArg Prod.fst same)
  rcases exists_split_of_ne (Table.get?_eq_some_iff.1 listed) (Table.get?_eq_some_iff.1 listed')
    apart with ⟨before, after, split, front⟩ | ⟨before, after, split, front⟩
  · exact mem_oneofs_of_group split (mem_group_iff.2 (.inr ⟨tag, member, .inr ⟨field, found,
      .inr ⟨_, List.mem_reverse.2 front, member'⟩, rfl⟩⟩))
  · exact mem_oneofs_of_group split (mem_group_iff.2 (.inr ⟨tag, member', .inr ⟨field, found,
      .inr ⟨_, List.mem_reverse.2 front, member⟩, rfl⟩⟩))

/-- What a message breaks is reported, and nothing else. That a default does not fit is reported
only where some optional field has it. -/
theorem mem_own_iff : violation ∈ own registry type ↔
    type.Breaks registry violation ∧ (violation.isMisfit → ∃ field ∈ type.fields,
      field.Breaks registry type.reserved type.name violation ∧ field.cardinality = .optional) := by
  simp only [own, List.mem_append, identifier, mem_when_iff, mem_distinct_iff, mem_fields_iff]
  constructor
  · rintro (((⟨broken, rfl⟩ | inFields) | inGroups) | ⟨name, twice, rfl⟩)
    · exact ⟨.identifier (by simpa using broken), fun misfit => by cases misfit⟩
    · obtain ⟨before, between, after, first, second, split, same, nearest, rfl⟩ |
        ⟨name, twice, rfl⟩ | ⟨field, held, breaks, shown⟩ := inFields
      · exact ⟨.tag split same nearest, fun misfit => by cases misfit⟩
      · exact ⟨.name twice, fun misfit => by cases misfit⟩
      · exact ⟨.field held breaks, fun misfit => ⟨field, held, breaks, shown misfit⟩⟩
    · obtain ⟨breaks, other⟩ := breaks_of_mem_oneofs inGroups
      exact ⟨breaks, fun misfit => by simp [other] at misfit⟩
    · exact ⟨.declared twice, fun misfit => by cases misfit⟩
  · rintro ⟨breaks, shown⟩
    cases breaks with
    | identifier broken => exact .inl (.inl (.inl ⟨by simpa using broken, rfl⟩))
    | field held breaks =>
      refine .inl (.inl (.inr (.inr (.inr ?_))))
      cases misfit : violation.isMisfit with
      | false => exact ⟨_, held, breaks, fun wrong => by cases wrong⟩
      | true =>
        obtain ⟨field, held, breaks, optional⟩ := shown misfit
        exact ⟨field, held, breaks, fun _ => optional⟩
    | tag split same nearest =>
      exact .inl (.inl (.inr (.inl ⟨_, _, _, _, _, split, same, nearest, rfl⟩)))
    | name twice => exact .inl (.inl (.inr (.inr (.inl ⟨_, twice, rfl⟩))))
    | declared twice => exact .inr ⟨_, twice, rfl⟩
    | emptyGroup listed broken =>
      obtain ⟨before, after, split⟩ := List.append_of_mem (Table.get?_eq_some_iff.1 listed)
      exact .inl (.inr (mem_oneofs_of_group split (mem_group_iff.2 (.inl ⟨broken, rfl⟩))))
    | unknownMember listed member broken =>
      obtain ⟨before, after, split⟩ := List.append_of_mem (Table.get?_eq_some_iff.1 listed)
      have unknown := MessageType.fieldTagged?_eq_none_iff.2 broken
      exact .inl (.inr (mem_oneofs_of_group split (mem_group_iff.2
        (.inr ⟨_, member, .inl ⟨unknown, rfl⟩⟩))))
    | otherGroup listed member found broken =>
      obtain ⟨before, after, split⟩ := List.append_of_mem (Table.get?_eq_some_iff.1 listed)
      exact .inl (.inr (mem_oneofs_of_group split (mem_group_iff.2
        (.inr ⟨_, member, .inr ⟨_, found, .inl broken, rfl⟩⟩))))
    | twoGroups listed listed' member member' found broken =>
      exact .inl (.inr (mem_oneofs_of_twoGroups listed listed' member member' found broken))
    | unlisted held names broken =>
      refine .inl (.inr (List.mem_append_right _ (List.mem_flatMap.2 ⟨_, held, ?_⟩)))
      simp only [names, mem_when_iff, and_true]
      cases listed : type.oneofs.get? _ with
      | none => rfl
      | some tags => simpa using broken tags listed

end Messages

/-! ## Enums -/

section Enums

variable {type : EnumType} {violation : Violation}

theorem mem_firstValue_iff : violation ∈ firstValue type ↔
    (type.values = [] ∧ violation = .emptyEnum type.name) ∨
    ∃ first, type.values.head? = some first ∧ first.number ≠ 0 ∧
      violation = .enumFirstValueNotZero type.name first.name first.number.toInt := by
  unfold firstValue
  cases type.values with
  | nil => simp
  | cons first rest => simp [mem_when_iff]

theorem breaks_of_mem_enumValue {before after : List EnumValue} {value : EnumValue}
    (split : type.values = before ++ value :: after)
    (reported : violation ∈ enumValue type before.reverse value) : type.Breaks violation := by
  have held : value ∈ type.values := by simp [split]
  simp only [enumValue, List.mem_append, identifier, mem_when_iff] at reported
  obtain ((⟨broken, rfl⟩ | ⟨again, rfl⟩) | number) | ⟨broken, rfl⟩ := reported
  · exact .valueIdentifier held (by simpa using broken)
  · refine .name (duplicate_iff_split.2 ⟨before.map (·.name), after.map (·.name), ?_, ?_⟩)
    · simp [split]
    · simpa using again
  · rw [List.reverse_reverse] at number
    split at number
    · rename_i first found
      obtain ⟨strict, rfl⟩ := mem_when_iff.1 number
      exact .number (by simpa using strict) split found
    · cases number
  · rcases Bool.or_eq_true_iff.1 broken with name | number
    · exact .reservedName held name
    · obtain ⟨range, among, within⟩ := hasNumber_iff.1 number
      exact .reservedNumber held among within

/-- What an enum breaks is reported, and nothing else. -/
theorem mem_enum_iff : violation ∈ enum type ↔ type.Breaks violation := by
  simp only [enum, List.mem_append, identifier, mem_when_iff, mem_firstValue_iff,
    mem_withEarlier_iff, List.append_nil]
  constructor
  · rintro ((⟨broken, rfl⟩ | ⟨broken, rfl⟩ | ⟨first, leads, broken, rfl⟩) |
      ⟨before, value, after, split, reported⟩)
    · exact .identifier (by simpa using broken)
    · exact .empty broken
    · exact .first leads broken
    · exact breaks_of_mem_enumValue split reported
  · intro breaks
    cases breaks with
    | identifier broken => exact .inl (.inl ⟨by simpa using broken, rfl⟩)
    | empty broken => exact .inl (.inr (.inl ⟨broken, rfl⟩))
    | first leads broken => exact .inl (.inr (.inr ⟨_, leads, broken, rfl⟩))
    | valueIdentifier held broken =>
      obtain ⟨before, after, split⟩ := List.append_of_mem held
      exact .inr ⟨before, _, after, split, by simp [enumValue, identifier, mem_when_iff, broken]⟩
    | name twice =>
      obtain ⟨front, rest, split, held⟩ := duplicate_iff_split.1 twice
      obtain ⟨before, others, split', rfl, here⟩ := List.map_eq_append_iff.1 split
      obtain ⟨value, after, rfl, rfl, -⟩ := List.map_eq_cons_iff.1 here
      have again : ∃ other ∈ before, other.name = value.name := by simpa using held
      exact .inr ⟨before, value, after, split', by simp [enumValue, mem_when_iff, again]⟩
    | number strict split found =>
      exact .inr ⟨_, _, _, split, by simp [enumValue, mem_when_iff, strict, found]⟩
    | reservedName held broken =>
      obtain ⟨before, after, split⟩ := List.append_of_mem held
      exact .inr ⟨before, _, after, split, by
        simp [enumValue, mem_when_iff, Reserved.hasName, broken]⟩
    | reservedNumber held among broken =>
      obtain ⟨before, after, split⟩ := List.append_of_mem held
      have number := hasNumber_iff.2 ⟨_, among, broken⟩
      exact .inr ⟨before, _, after, split, by simp [enumValue, mem_when_iff, number]⟩

end Enums

/-! ## Everything inside a message -/

mutual

/-- A message reports its own violations, and those of its entry messages, of the messages nested
in it and of its enums. -/
theorem mem_message_iff (registry : Registry) (violation : Violation) : ∀ type : MessageType,
    violation ∈ message registry type ↔
      (∃ outer ∈ type.withNested, ∃ inner ∈ outer :: outer.entryMessages,
        violation ∈ own registry inner) ∨
      ∃ kind ∈ type.enumsWithin, violation ∈ enum kind
  | ⟨name, fields, enums, nested, groups, reserved⟩ => by
    have inside := mem_messages_iff registry violation nested
    simp only [message, MessageType.withNested, MessageType.enumsWithin, List.mem_append,
      List.mem_flatMap, inside, List.exists_mem_cons_iff, or_and_right,
      exists_or]
    constructor
    · rintro (((own | entry) | kind) | deep | kind)
      · exact .inl (.inl (.inl own))
      · exact .inl (.inl (.inr entry))
      · exact .inr (.inr kind)
      · exact .inl (.inr deep)
      · exact .inr (.inl kind)
    · rintro (((own | entry) | deep) | kind | kind)
      · exact .inl (.inl (.inl own))
      · exact .inl (.inl (.inr entry))
      · exact .inr (.inl deep)
      · exact .inr (.inr kind)
      · exact .inl (.inr kind)

/-- Messages report what each of them reports. -/
theorem mem_messages_iff (registry : Registry) (violation : Violation) :
    ∀ types : List MessageType, violation ∈ messages registry types ↔
      (∃ outer ∈ MessageType.allNested types, ∃ inner ∈ outer :: outer.entryMessages,
        violation ∈ own registry inner) ∨
      ∃ kind ∈ MessageType.allEnumsWithin types, violation ∈ enum kind
  | [] => by simp [messages, MessageType.allNested, MessageType.allEnumsWithin]
  | type :: rest => by
    have here := mem_message_iff registry violation type
    have after := mem_messages_iff registry violation rest
    simp only [messages, MessageType.allNested, MessageType.allEnumsWithin, List.mem_append, here,
      after, or_and_right, exists_or]
    exact or_or_or_comm

end

end Validate

namespace Schema

variable {schema : Schema}

/-- A default that does not fit is hidden if no field that has it is optional, for of such a field
it is only said that it may have none. -/
def Hides (schema : Schema) (violation : Violation) : Prop :=
  violation.isMisfit ∧ ∀ type ∈ schema.types, ∀ field ∈ type.fields,
    field.Breaks (.ofSchema schema) type.reserved type.name violation →
      field.cardinality ≠ .optional

/-- Validation reports names that outermost types share, the violations of each message and of each
enum, and circles of embeddings. -/
theorem mem_violations_iff_own {violation : Violation} : violation ∈ schema.violations ↔
    (∃ name, List.Duplicate name
      (schema.messages.map (·.simpleName) ++ schema.enums.map (·.simpleName)) ∧
        violation = .duplicateNestedName schema.scope name) ∨
    (∃ type ∈ schema.types, violation ∈ Validate.own (.ofSchema schema) type) ∨
    (∃ kind ∈ schema.allEnums, violation ∈ Validate.enum kind) ∨
    ∃ path ∈ Cycle.all (.ofSchema schema), violation = .unresolvableCycle path := by
  simp only [violations, Validate.cycles, List.mem_append, List.mem_map, Validate.mem_distinct_iff,
    Validate.mem_messages_iff, List.mem_flatMap]
  constructor
  · rintro (((twice | messages | enums) | enums) | ⟨path, held, rfl⟩)
    · exact .inl twice
    · obtain ⟨outer, outermost, inner, inside, reported⟩ := messages
      exact .inr (.inl ⟨inner, mem_types_iff.2 ⟨outer, outermost, List.mem_cons.1 inside⟩,
        reported⟩)
    · obtain ⟨kind, held, reported⟩ := enums
      exact .inr (.inr (.inl ⟨kind, List.mem_append_left _ held, reported⟩))
    · obtain ⟨kind, held, reported⟩ := enums
      exact .inr (.inr (.inl ⟨kind, List.mem_append_right _ held, reported⟩))
    · exact .inr (.inr (.inr ⟨path, held, rfl⟩))
  · rintro (twice | ⟨type, held, reported⟩ | ⟨kind, held, reported⟩ | ⟨path, held, rfl⟩)
    · exact .inl (.inl (.inl twice))
    · obtain ⟨outer, outermost, inside⟩ := mem_types_iff.1 held
      exact .inl (.inl (.inr (.inl ⟨outer, outermost, type, List.mem_cons.2 inside, reported⟩)))
    · rcases List.mem_append.1 held with within | outermost
      · exact .inl (.inl (.inr (.inr ⟨kind, within, reported⟩)))
      · exact .inl (.inr ⟨kind, outermost, reported⟩)
    · exact .inr ⟨path, held, rfl⟩

/-- Validation reports what a schema breaks and does not hide, then circles of embeddings. -/
theorem mem_violations_iff {violation : Violation} : violation ∈ schema.violations ↔
    (schema.Breaks violation ∧ ¬schema.Hides violation) ∨
      ∃ path ∈ Cycle.all (.ofSchema schema), violation = .unresolvableCycle path := by
  rw [mem_violations_iff_own, ← or_assoc, ← or_assoc]
  refine or_congr_left ⟨?_, ?_⟩
  · rintro ((⟨name, twice, rfl⟩ | ⟨type, held, reported⟩) | ⟨kind, held, reported⟩)
    · exact ⟨.name twice, fun hides => by cases hides.1⟩
    · obtain ⟨breaks, shown⟩ := Validate.mem_own_iff.1 reported
      refine ⟨.message held breaks, fun hides => ?_⟩
      obtain ⟨field, declared, breaks, optional⟩ := shown hides.1
      exact hides.2 type held field declared breaks optional
    · have breaks := Validate.mem_enum_iff.1 reported
      refine ⟨.enum held breaks, fun hides => ?_⟩
      rw [Hides, breaks.isMisfit_eq_false] at hides
      cases hides.1
  · rintro ⟨breaks, shown⟩
    cases breaks with
    | name twice => exact .inl (.inl ⟨_, twice, rfl⟩)
    | @message type _ held breaks =>
      refine .inl (.inr ?_)
      cases misfit : violation.isMisfit with
      | false =>
        exact ⟨type, held, Validate.mem_own_iff.2 ⟨breaks, fun wrong => by simp [misfit] at wrong⟩⟩
      | true =>
        -- Some type has an optional field with this default, though not always the type at hand.
        simp only [Hides, misfit, true_and, not_forall, not_not] at shown
        obtain ⟨other, held', field, declared, breaks', optional⟩ := shown
        exact ⟨other, held', Validate.mem_own_iff.2
          ⟨.field declared breaks', fun _ => ⟨field, declared, breaks', optional⟩⟩⟩
    | enum held breaks => exact .inr ⟨_, held, Validate.mem_enum_iff.2 breaks⟩

/-- A fault of a field is reported, or it is that its default does not fit and the field is reported
to have one without being optional. -/
theorem reported_of_field {type : MessageType} (held : type ∈ schema.types) {field : Field}
    (declared : field ∈ type.fields) {violation : Violation}
    (breaks : field.Breaks (.ofSchema schema) type.reserved type.name violation) :
    violation ∈ schema.violations ∨ violation.isMisfit ∧ field.cardinality ≠ .optional ∧
      .defaultRequiresPresence type.name field.name ∈ schema.violations := by
  by_cases hides : schema.Hides violation
  · have broken := hides.2 type held field declared breaks
    cases breaks with
    | default given =>
      have presence : schema.Breaks (.defaultRequiresPresence type.name field.name) :=
        .message held (.field declared (.presence given broken))
      exact .inr ⟨rfl, broken, mem_violations_iff.2 (.inl ⟨presence, fun hides => by
        cases hides.1⟩)⟩
    | _ => cases hides.1
  · exact .inl (mem_violations_iff.2 (.inl ⟨.message held (.field declared breaks), hides⟩))

/-- A default that does not fit is the default of a field. -/
theorem Breaks.exists_field {violation : Violation} (breaks : schema.Breaks violation)
    (misfit : violation.isMisfit) : ∃ type ∈ schema.types, ∃ field ∈ type.fields,
      field.Breaks (.ofSchema schema) type.reserved type.name violation := by
  cases breaks with
  | name => cases misfit
  | @message type _ held breaks =>
    cases breaks with
    | field declared breaks => exact ⟨type, held, _, declared, breaks⟩
    | _ => cases misfit
  | enum held breaks => simp [breaks.isMisfit_eq_false] at misfit

/-- What a declaration breaks is no circle. -/
theorem Breaks.isCycle_eq_false {violation : Violation} (breaks : schema.Breaks violation) :
    violation.isCycle = false := by
  cases breaks with
  | name => rfl
  | message held breaks =>
    cases breaks with
    | field held breaks => cases breaks <;> rfl
    | _ => rfl
  | enum held breaks => cases breaks <;> rfl

/-- Of circles, validation reports those that the search finds. -/
theorem unresolvableCycle_mem_violations_iff {path : List String} :
    .unresolvableCycle path ∈ schema.violations ↔ path ∈ Cycle.all (.ofSchema schema) := by
  rw [mem_violations_iff]
  constructor
  · rintro (⟨breaks, -⟩ | ⟨other, held, same⟩)
    · cases breaks.isCycle_eq_false
    · cases same
      exact held
  · exact fun held => .inr ⟨path, held, rfl⟩

/-- Some circle is reported exactly if some message leads back to itself. -/
theorem exists_unresolvableCycle_iff :
    (∃ path, .unresolvableCycle path ∈ schema.violations) ↔
      ∃ name, TransGen (Registry.ofSchema schema).Embeds name name := by
  rw [← Cycle.exists_mem_all_iff]
  exact exists_congr fun path => unresolvableCycle_mem_violations_iff

/-- Nothing is reported exactly if every rule is kept. -/
theorem violations_eq_nil_iff : schema.violations = [] ↔ schema.WellFormed := by
  rw [wellFormed_iff, List.eq_nil_iff_forall_not_mem]
  constructor
  · intro nothing
    constructor
    · intro violation breaks
      by_cases hides : schema.Hides violation
      · obtain ⟨type, held, field, declared, breaks⟩ := breaks.exists_field hides.1
        exact (reported_of_field held declared breaks).elim (nothing _) fun ⟨_, _, reported⟩ =>
          nothing _ reported
      · exact nothing _ (mem_violations_iff.2 (.inl ⟨breaks, hides⟩))
    · intro name back
      obtain ⟨path, reported⟩ := exists_unresolvableCycle_iff.2 ⟨name, back⟩
      exact nothing _ reported
  · rintro ⟨none_broken, acyclic⟩ violation reported
    rcases mem_violations_iff.1 reported with ⟨breaks, -⟩ | ⟨path, held, rfl⟩
    · exact none_broken violation breaks
    · obtain ⟨name, back⟩ := exists_unresolvableCycle_iff.1 ⟨path, reported⟩
      exact acyclic name back

/-- Validation accepts the well-formed schemas and no other ones. It reports nothing that no
declaration breaks, and a circle of embeddings if there is any. It reports each rule that a
declaration breaks, but that a default does not fit only where some field that has it is optional;
of any other field it reports that it may have none. -/
theorem violations_exact (schema : Schema) :
    (schema.violations = [] ↔ schema.WellFormed) ∧
    (∀ violation, violation.isCycle = false →
      (violation ∈ schema.violations ↔ schema.Breaks violation ∧ ¬schema.Hides violation)) ∧
    (∀ type ∈ schema.types, ∀ field ∈ type.fields, ∀ violation,
      field.Breaks (.ofSchema schema) type.reserved type.name violation →
        violation ∈ schema.violations ∨ violation.isMisfit ∧ field.cardinality ≠ .optional ∧
          .defaultRequiresPresence type.name field.name ∈ schema.violations) ∧
    ((∃ path, .unresolvableCycle path ∈ schema.violations) ↔
      ∃ name, TransGen (Registry.ofSchema schema).Embeds name name) := by
  refine ⟨violations_eq_nil_iff, fun violation single => ?_,
    fun type held field declared violation => reported_of_field held declared,
    exists_unresolvableCycle_iff⟩
  rw [mem_violations_iff, or_iff_left]
  rintro ⟨path, -, rfl⟩
  cases single

/-- A number with a text for its default, and no presence that would allow for one. -/
def misplacedDefault : Schema where
  messages :=
    [{ name := "M"
       fields :=
         [{ name := "x", tag := 1, type := .builtin .int32, default := some (.text "abc") }] }]

/-- The text is no number, but all that is reported is that the field may have no default. -/
theorem violations_hidden :
    misplacedDefault.Breaks (.defaultTypeMismatch "M" "x" "int32") ∧
      misplacedDefault.violations = [.defaultRequiresPresence "M" "x"] ∧
      .defaultTypeMismatch "M" "x" "int32" ∉ misplacedDefault.violations := by
  have reported : misplacedDefault.violations = [.defaultRequiresPresence "M" "x"] := by decide
  refine ⟨?_, reported, by simp [reported]⟩
  have unfit : ¬DefaultValue.Fits (.ofSchema misplacedDefault) (.builtin .int32) (.text "abc") :=
    mt Validate.fits_iff.2 (by decide)
  exact .message (mem_types_of_mem_allMessages List.mem_cons_self)
    (.field List.mem_cons_self (.default rfl unfit))

/-- Each circle that validation reports goes along embeddings of known messages and passes no name
twice but the one that it starts and ends with. Every circuit of embeddings, also one that passes
names several times, takes the last step of a reported one, so that some circle is reported exactly
if there is any. -/
theorem circles_exact (schema : Schema) :
    (∀ path, .unresolvableCycle path ∈ schema.violations →
      Cycle.IsCircle (.ofSchema schema) path) ∧
    (∀ path, Cycle.IsCircuit (Registry.ofSchema schema).Embeds path →
      ∃ name target reported, [name, target] <:+: path ∧
        .unresolvableCycle reported ∈ schema.violations ∧ [name, target] <:+ reported) ∧
    ((∃ path, .unresolvableCycle path ∈ schema.violations) ↔
      ∃ path, Cycle.IsCircuit (Registry.ofSchema schema).Embeds path) := by
  have sound : ∀ path, .unresolvableCycle path ∈ schema.violations →
      Cycle.IsCircle (.ofSchema schema) path := by
    intro path reported
    apply Cycle.isCircle_of_mem_all
    exact unresolvableCycle_mem_violations_iff.1 reported
  have complete : ∀ path, Cycle.IsCircuit (Registry.ofSchema schema).Embeds path →
      ∃ name target reported, [name, target] <:+: path ∧
        .unresolvableCycle reported ∈ schema.violations ∧ [name, target] <:+ reported := by
    intro path circuit
    obtain ⟨name, target, inside, reported, held, ends⟩ :=
      Cycle.exists_closes_of_isCircuit circuit
    exact ⟨name, target, reported, inside, unresolvableCycle_mem_violations_iff.2 held, ends⟩
  refine ⟨sound, complete, ?_, ?_⟩
  · rintro ⟨path, reported⟩
    exact ⟨path, (sound path reported).isCircuit⟩
  · rintro ⟨path, circuit⟩
    obtain ⟨_, _, reported, -, held, -⟩ := complete path circuit
    exact ⟨reported, held⟩

/-- A message that embeds itself, and another one twice, which embeds it in turn. -/
def knot : Schema where
  messages :=
    [{ name := "A"
       fields := [{ name := "first", tag := 1, type := .message "B" },
         { name := "self", tag := 2, type := .message "A" },
         { name := "second", tag := 3, type := .message "B" }] },
     { name := "B", fields := [{ name := "back", tag := 1, type := .message "A" }] }]

/-- The circuit through both messages is reported once, starting with the first of them. -/
theorem circles_exact_knot :
    Cycle.IsCircle (.ofSchema knot) ["A", "B", "A"] ∧
      ∃ name target reported, [name, target] <:+: ["B", "A", "B"] ∧
        .unresolvableCycle reported ∈ knot.violations ∧ [name, target] <:+ reported := by
  obtain ⟨sound, complete, -⟩ := circles_exact knot
  have circle := sound ["A", "B", "A"] (by decide)
  obtain ⟨forth, after⟩ := List.isChain_cons_cons.1 circle.steps
  obtain ⟨back, -⟩ := List.isChain_cons_cons.1 after
  refine ⟨circle, complete ["B", "A", "B"] ⟨?_, rfl, by decide⟩⟩
  exact List.isChain_cons_cons.2 ⟨back, List.isChain_cons_cons.2 ⟨forth, .singleton _⟩⟩

end Schema

end Protobuf
