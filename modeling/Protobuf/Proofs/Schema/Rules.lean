import Mathlib.Algebra.Group.Int.Defs
import Mathlib.Algebra.Group.Nat.Defs
import Mathlib.Data.List.Duplicate
import Mathlib.Data.List.Nodup
import Protobuf.Proofs.Schema.Cycle
import Protobuf.Proofs.Schema.Types

/-! # Rules for schemas

The rules that a schema keeps, stated of its declarations alone, and for each rule what breaks it.

## Main definitions

* `Schema.WellFormed`: every rule is kept.
* `Schema.Breaks`: some declaration breaks the rule that a violation names.

Main statement: `Schema.wellFormed_iff`, a schema is well formed exactly if it breaks no rule and
no message leads back to itself.

## Implementation notes

Both speak of the registry of the schema, for it says which types are known. Each kind of
declaration has a structure of its rules and a relation to what it breaks, with one constructor for
each way in which a rule fails. -/

namespace Protobuf

open Relation

/-! ## Types and defaults -/

namespace FieldType

/-- A type of whole numbers, flags or texts. -/
def IsKey (type : FieldType) : Prop :=
  ∃ builtin : Builtin, type = .builtin builtin ∧
    builtin ≠ .float ∧ builtin ≠ .double ∧ builtin ≠ .bytes

/-- A type of numbers, flags or enum values. -/
def IsNumeric (type : FieldType) : Prop :=
  (∃ builtin : Builtin, type = .builtin builtin ∧ builtin ≠ .string ∧ builtin ≠ .bytes) ∨
    ∃ name, type = .enum name

theorem isValidMapKey_iff {type : FieldType} : type.isValidMapKey ↔ type.IsKey := by
  cases type with
  | builtin builtin => cases builtin <;> simp [isValidMapKey, Builtin.isValidMapKey, IsKey]
  | _ => simp [isValidMapKey, IsKey]

theorem isPackable_iff {type : FieldType} : type.isPackable ↔ type.IsNumeric := by
  cases type with
  | builtin builtin => cases builtin <;> simp [isPackable, wireType, Builtin.wireType, IsNumeric]
  | _ => simp [isPackable, wireType, IsNumeric]

end FieldType

/-- A default is a value of a type. A name fits an enum that is not known. -/
inductive DefaultValue.Fits (registry : Registry) : FieldType → DefaultValue → Prop
  | bool {value : Bool} : Fits registry (.builtin .bool) (.bool value)
  | signed32 {type : Builtin} {value : Int}
    (kind : type = .int32 ∨ type = .sint32 ∨ type = .sfixed32)
    (low : -2 ^ 31 ≤ value) (high : value < 2 ^ 31) : Fits registry (.builtin type) (.integer value)
  | signed64 {type : Builtin} {value : Int}
    (kind : type = .int64 ∨ type = .sint64 ∨ type = .sfixed64)
    (low : -2 ^ 63 ≤ value) (high : value < 2 ^ 63) : Fits registry (.builtin type) (.integer value)
  | unsigned32 {type : Builtin} {value : Int} (kind : type = .uint32 ∨ type = .fixed32)
    (low : 0 ≤ value) (high : value < 2 ^ 32) : Fits registry (.builtin type) (.integer value)
  | unsigned64 {type : Builtin} {value : Int} (kind : type = .uint64 ∨ type = .fixed64)
    (low : 0 ≤ value) (high : value < 2 ^ 64) : Fits registry (.builtin type) (.integer value)
  | whole {type : Builtin} {value : Int} (kind : type = .float ∨ type = .double) :
    Fits registry (.builtin type) (.integer value)
  | real {type : Builtin} {value : Number.Binary64} (kind : type = .float ∨ type = .double) :
    Fits registry (.builtin type) (.float value)
  | text {type : Builtin} {value : String} (kind : type = .string ∨ type = .bytes) :
    Fits registry (.builtin type) (.text value)
  | named {name value : String} (known : ∀ type, registry.enum? name = some type →
      ∃ declared ∈ type.values, declared.name = value) : Fits registry (.enum name) (.text value)
  | numbered {name : String} {value : Int} (low : -2 ^ 31 ≤ value) (high : value < 2 ^ 31) :
    Fits registry (.enum name) (.integer value)

/-- A text names a value of an enum exactly if some value has that name. -/
theorem EnumType.isSome_valueNamed?_iff {type : EnumType} {name : String} :
    (type.valueNamed? name).isSome ↔ ∃ declared ∈ type.values, declared.name = name := by
  simp [valueNamed?]

namespace Validate

open Number

/-- The types with bounds are those of whole numbers, of either width and with or without sign. -/
theorem bounds?_eq_some {type : Builtin} {bounds : Bounds} (known : bounds? type = some bounds) :
    (bounds = .signed32 ∧ (type = .int32 ∨ type = .sint32 ∨ type = .sfixed32)) ∨
    (bounds = .signed64 ∧ (type = .int64 ∨ type = .sint64 ∨ type = .sfixed64)) ∨
    (bounds = .unsigned32 ∧ (type = .uint32 ∨ type = .fixed32)) ∨
    (bounds = .unsigned64 ∧ (type = .uint64 ∨ type = .fixed64)) := by
  cases type <;> simp_all [bounds?]

theorem holds_iff {bounds : Bounds} {value : Int} :
    bounds.holds value ↔ bounds.low ≤ value ∧ value ≤ bounds.high := by
  simp [Bounds.holds]

/-- A whole number that is accepted for a built-in type is a value of it. -/
theorem fits_integer {registry : Registry} {type : Builtin} {value : Int}
    (fitting : fitsBuiltin type (.integer value)) :
    DefaultValue.Fits registry (.builtin type) (.integer value) := by
  cases known : bounds? type with
  | none =>
    have kind : type = .float ∨ type = .double := by simpa [fitsBuiltin, known] using fitting
    exact .whole kind
  | some bounds =>
    have within : bounds.holds value := by simpa [fitsBuiltin, known] using fitting
    obtain ⟨low, high⟩ := holds_iff.1 within
    rcases bounds?_eq_some known with ⟨rfl, kind⟩ | ⟨rfl, kind⟩ | ⟨rfl, kind⟩ | ⟨rfl, kind⟩
    · exact .signed32 kind low (Int.lt_add_one_of_le high)
    · exact .signed64 kind low (Int.lt_add_one_of_le high)
    · exact .unsigned32 kind low (Int.lt_add_one_of_le high)
    · exact .unsigned64 kind low (Int.lt_add_one_of_le high)

/-- A default that is accepted for a built-in type is a value of it. -/
theorem fits_builtin {registry : Registry} {type : Builtin} {default : DefaultValue}
    (fitting : fitsBuiltin type default) : default.Fits registry (.builtin type) := by
  cases default with
  | bool value =>
    have kind : type = .bool := by cases type <;> simp_all [fitsBuiltin, bounds?]
    exact kind ▸ .bool
  | integer value => exact fits_integer fitting
  | float value => exact .real (by cases type <;> simp_all [fitsBuiltin, bounds?])
  | text value => exact .text (by cases type <;> simp_all [fitsBuiltin, bounds?])

/-- The check of a default accepts the values of its type. -/
theorem fits_iff {registry : Registry} {type : FieldType} {default : DefaultValue} :
    fits registry type default ↔ default.Fits registry type := by
  constructor
  · intro fitting
    cases type with
    | builtin type => exact fits_builtin fitting
    | enum name =>
      cases default with
      | text value =>
        refine .named fun type known => ?_
        rw [fits, known, Option.all_some] at fitting
        exact EnumType.isSome_valueNamed?_iff.1 fitting
      | integer value =>
        obtain ⟨low, high⟩ := holds_iff.1 fitting
        exact .numbered low (Int.lt_add_one_of_le high)
      | _ => cases fitting
    | _ => cases fitting
  · intro fitting
    cases fitting with
    | @named name value known =>
      rw [fits]
      cases found : registry.enum? name with
      | none => rfl
      | some type => exact EnumType.isSome_valueNamed?_iff.2 (known type found)
    | numbered low high => exact holds_iff.2 ⟨low, Int.le_of_lt_add_one high⟩
    | bool => rfl
    | signed32 kind low high | signed64 kind low high =>
      rcases kind with rfl | rfl | rfl <;> exact holds_iff.2 ⟨low, Int.le_of_lt_add_one high⟩
    | unsigned32 kind low high | unsigned64 kind low high =>
      rcases kind with rfl | rfl <;> exact holds_iff.2 ⟨low, Int.le_of_lt_add_one high⟩
    | whole kind | real kind | text kind => rcases kind with rfl | rfl <;> rfl

end Validate

/-! ## Fields -/

/-- The rules for a field on its own. -/
structure Field.WellFormed (registry : Registry) (reserved : Reserved) (field : Field) : Prop where
  identifier : Name.isIdentifier field.name
  range : 1 ≤ field.tag ∧ field.tag < 2 ^ 29
  apart : field.tag < 19000 ∨ 19999 < field.tag
  number : ∀ range ∈ reserved.ranges, ¬(range.first ≤ field.tag ∧ field.tag ≤ range.last)
  name : ¬reserved.names.contains field.name
  mapCardinality : ∀ key value, field.type = .map key value → field.cardinality = .singular
  mapKey : ∀ key value, field.type = .map key value → key.IsKey
  mapValue : ∀ key value, field.type = .map key value → ¬value.isMap
  enum : ∀ name, field.type = .enum name → (registry.enum? name).isSome
  message : ∀ name, field.type = .message name → (registry.message? name).isSome
  packed : field.cardinality = .packed → field.type.IsNumeric
  member : field.oneof ≠ none → field.cardinality = .singular ∧ ¬field.isMap
  presence : ∀ default, field.default = some default → field.cardinality = .optional
  default : ∀ default, field.default = some default → default.Fits registry field.type

/-- A field breaks a rule for fields on their own. -/
inductive Field.Breaks (registry : Registry) (reserved : Reserved) (message : String)
    (field : Field) : Violation → Prop
  | identifier (broken : ¬Name.isIdentifier field.name) :
    Breaks registry reserved message field (.invalidName message field.name)
  | range (broken : ¬(1 ≤ field.tag ∧ field.tag < 2 ^ 29)) :
    Breaks registry reserved message field (.tagOutOfRange message field.name field.tag)
  | setAside (broken : ¬(field.tag < 19000 ∨ 19999 < field.tag)) :
    Breaks registry reserved message field (.tagSetAside message field.name field.tag)
  | reservedTag {range : NumberRange} (held : range ∈ reserved.ranges)
    (within : range.first ≤ field.tag ∧ field.tag ≤ range.last) :
    Breaks registry reserved message field (.reservedTag message field.name field.tag)
  | reservedName (held : reserved.names.contains field.name) :
    Breaks registry reserved message field (.reservedName message field.name)
  | mapCardinality {key value : FieldType} (kind : field.type = .map key value)
    (broken : field.cardinality ≠ .singular) :
    Breaks registry reserved message field (.mapCardinality message field.name)
  | mapKey {key value : FieldType} (kind : field.type = .map key value) (broken : ¬key.IsKey) :
    Breaks registry reserved message field (.invalidMapKey message field.name key.text)
  | mapValue {key value : FieldType} (kind : field.type = .map key value) (broken : value.isMap) :
    Breaks registry reserved message field (.invalidMapValue message field.name)
  | enum {name : String} (kind : field.type = .enum name)
    (broken : registry.enum? name = none) :
    Breaks registry reserved message field (.unresolvedType message field.name name)
  | message {name : String} (kind : field.type = .message name)
    (broken : registry.message? name = none) :
    Breaks registry reserved message field (.unresolvedType message field.name name)
  | packed (kind : field.cardinality = .packed) (broken : ¬field.type.IsNumeric) :
    Breaks registry reserved message field
      (.packedNotScalar message field.name field.type.text)
  | member (grouped : field.oneof ≠ none)
    (broken : ¬(field.cardinality = .singular ∧ ¬field.isMap)) :
    Breaks registry reserved message field (.oneofMemberCardinality message field.name)
  | presence {default : DefaultValue} (given : field.default = some default)
    (broken : field.cardinality ≠ .optional) :
    Breaks registry reserved message field (.defaultRequiresPresence message field.name)
  | default {default : DefaultValue} (given : field.default = some default)
    (broken : ¬default.Fits registry field.type) :
    Breaks registry reserved message field
      (.defaultTypeMismatch message field.name field.type.text)

/-- A field is well formed exactly if it breaks no rule. -/
theorem Field.wellFormed_iff {registry : Registry} {reserved : Reserved} {field : Field}
    (message : String) : field.WellFormed registry reserved ↔
      ∀ violation, ¬field.Breaks registry reserved message violation := by
  constructor
  · intro formed violation breaks
    cases breaks with
    | identifier broken => exact broken formed.identifier
    | range broken => exact broken formed.range
    | setAside broken => exact broken formed.apart
    | reservedTag held within => exact formed.number _ held within
    | reservedName held => exact formed.name held
    | mapCardinality kind broken => exact broken (formed.mapCardinality _ _ kind)
    | mapKey kind broken => exact broken (formed.mapKey _ _ kind)
    | mapValue kind broken => exact formed.mapValue _ _ kind broken
    | enum kind broken => exact absurd (formed.enum _ kind) (by simp [broken])
    | message kind broken => exact absurd (formed.message _ kind) (by simp [broken])
    | packed kind broken => exact broken (formed.packed kind)
    | member grouped broken => exact broken (formed.member grouped)
    | presence given broken => exact broken (formed.presence _ given)
    | default given broken => exact broken (formed.default _ given)
  · intro none_broken
    exact {
      identifier := by_contra fun broken => none_broken _ (.identifier broken)
      range := by_contra fun broken => none_broken _ (.range broken)
      apart := by_contra fun broken => none_broken _ (.setAside broken)
      number := fun range held within => none_broken _ (.reservedTag held within)
      name := fun held => none_broken _ (.reservedName held)
      mapCardinality := fun key value kind =>
        by_contra fun broken => none_broken _ (.mapCardinality kind broken)
      mapKey := fun key value kind => by_contra fun broken => none_broken _ (.mapKey kind broken)
      mapValue := fun key value kind broken => none_broken _ (.mapValue kind broken)
      enum := fun name kind => Option.isSome_iff_ne_none.2 fun broken =>
        none_broken _ (.enum kind broken)
      message := fun name kind => Option.isSome_iff_ne_none.2 fun broken =>
        none_broken _ (.message kind broken)
      packed := fun kind => by_contra fun broken => none_broken _ (.packed kind broken)
      member := fun grouped => by_contra fun broken => none_broken _ (.member grouped broken)
      presence := fun default given => by_contra fun broken =>
        none_broken _ (.presence given broken)
      default := fun default given => by_contra fun broken =>
        none_broken _ (.default given broken) }

/-- A well-formed map field makes one entry message. -/
theorem Field.WellFormed.entryMessages_of_map {registry : Registry} {reserved : Reserved}
    {field : Field} (formed : field.WellFormed registry reserved) {key value : FieldType}
    (kind : field.type = .map key value) (scope : String) :
    field.type.entryMessages scope field.name =
      [entryMessage (Name.join scope (entryName field.name)) key value] := by
  obtain ⟨builtin, rfl, -⟩ := formed.mapKey key value kind
  have single := formed.mapValue _ value kind
  rw [kind]
  cases value with
  | map => exact absurd rfl single
  | _ => rfl

/-! ## Messages -/

/-- The rules for a message, those for the types inside it left out. -/
structure MessageType.WellFormed (registry : Registry) (type : MessageType) : Prop where
  identifier : Name.isIdentifier type.simpleName
  fields : ∀ field ∈ type.fields, field.WellFormed registry type.reserved
  tags : (type.fields.map (·.tag)).Nodup
  names : (type.fields.map (·.name)).Nodup
  groups : ∀ group tags, type.oneofs.get? group = some tags →
    (∃ tag, tags.contains tag) ∧ ∀ tag, tags.contains tag ↔
      ∃ field ∈ type.fields, field.tag = tag ∧ field.oneof = some group
  grouped : ∀ field ∈ type.fields, ∀ group, field.oneof = some group → type.oneofs.contains group
  declared : (Validate.declaredNames type).Nodup

/-- A message breaks a rule for messages, or one of its fields a rule for fields. -/
inductive MessageType.Breaks (registry : Registry) (type : MessageType) : Violation → Prop
  | identifier (broken : ¬Name.isIdentifier type.simpleName) :
    Breaks registry type (.invalidName type.name type.simpleName)
  | field {field : Field} {violation : Violation} (held : field ∈ type.fields)
    (breaks : field.Breaks registry type.reserved type.name violation) :
    Breaks registry type violation
  | tag {before between after : List Field} {first second : Field}
    (split : type.fields = before ++ first :: between ++ second :: after)
    (same : first.tag = second.tag) (nearest : ∀ field ∈ between, field.tag ≠ second.tag) :
    Breaks registry type (.duplicateTag type.name second.tag first.name second.name)
  | name {name : String} (twice : List.Duplicate name (type.fields.map (·.name))) :
    Breaks registry type (.duplicateFieldName type.name name)
  | emptyGroup {group : String} {tags : KeySet Nat} (listed : type.oneofs.get? group = some tags)
    (broken : ∀ tag, ¬tags.contains tag) :
    Breaks registry type (.emptyOneof type.name group)
  | unknownMember {group : String} {tags : KeySet Nat} {tag : Nat}
    (listed : type.oneofs.get? group = some tags) (member : tags.contains tag)
    (broken : ∀ field ∈ type.fields, field.tag ≠ tag) :
    Breaks registry type (.oneofUnknownMember type.name group tag)
  | otherGroup {group : String} {tags : KeySet Nat} {tag : Nat} {field : Field}
    (listed : type.oneofs.get? group = some tags) (member : tags.contains tag)
    (found : type.fieldTagged? tag = some field) (broken : field.oneof ≠ some group) :
    Breaks registry type (.oneofConflict type.name field.name)
  | twoGroups {group other : String} {tags others : KeySet Nat} {tag : Nat} {field : Field}
    (listed : type.oneofs.get? group = some tags) (listed' : type.oneofs.get? other = some others)
    (member : tags.contains tag) (member' : others.contains tag)
    (found : type.fieldTagged? tag = some field) (broken : group ≠ other) :
    Breaks registry type (.oneofConflict type.name field.name)
  | unlisted {field : Field} {group : String} (held : field ∈ type.fields)
    (names : field.oneof = some group)
    (broken : ∀ tags, type.oneofs.get? group = some tags → ¬tags.contains field.tag) :
    Breaks registry type (.oneofConflict type.name field.name)
  | declared {name : String} (twice : List.Duplicate name (Validate.declaredNames type)) :
    Breaks registry type (.duplicateNestedName type.name name)

theorem MessageType.fieldTagged?_eq_none_iff {type : MessageType} {tag : Nat} :
    type.fieldTagged? tag = none ↔ ∀ field ∈ type.fields, field.tag ≠ tag := by
  simp [fieldTagged?]

theorem MessageType.mem_of_fieldTagged? {type : MessageType} {tag : Nat} {field : Field}
    (found : type.fieldTagged? tag = some field) : field ∈ type.fields ∧ field.tag = tag :=
  ⟨List.mem_of_find?_eq_some found, by simpa using List.find?_some found⟩

/-- Where an answer is given twice, two items give it with only other answers between them. -/
theorem exists_nearest_of_not_nodup {α β : Type} [DecidableEq β] {f : α → β} {items : List α}
    (twice : ¬(items.map f).Nodup) : ∃ before first between second after,
      items = before ++ first :: between ++ second :: after ∧ f first = f second ∧
        ∀ item ∈ between, f item ≠ f second := by
  induction items with
  | nil => exact absurd List.nodup_nil twice
  | cons head rest ih =>
    by_cases distinct : (rest.map f).Nodup
    · have again : f head ∈ rest.map f := by
        by_contra fresh
        exact twice (List.nodup_cons.2 ⟨fresh, distinct⟩)
      obtain ⟨item, held, same⟩ := List.mem_map.1 again
      have found : (rest.find? (f · = f head)).isSome :=
        List.find?_isSome.2 ⟨item, held, decide_eq_true same⟩
      obtain ⟨second, found⟩ := Option.isSome_iff_exists.1 found
      obtain ⟨here, between, after, split, others⟩ := List.find?_eq_some_iff_append.1 found
      have here : f second = f head := of_decide_eq_true here
      refine ⟨[], head, between, second, after, by rw [split]; rfl, here.symm, ?_⟩
      intro item held same
      simpa [same, here] using others item held
    · obtain ⟨before, first, between, second, after, split, same, nearest⟩ := ih distinct
      exact ⟨head :: before, first, between, second, after, by rw [split]; rfl, same, nearest⟩

/-- A group of a message that breaks no rule lists the fields that name it. -/
theorem MessageType.groups_of_not_breaks {registry : Registry} {type : MessageType}
    (none_broken : ∀ violation, ¬type.Breaks registry violation) {group : String}
    {tags : KeySet Nat} (listed : type.oneofs.get? group = some tags) :
    (∃ tag, tags.contains tag) ∧ ∀ tag, tags.contains tag ↔
      ∃ field ∈ type.fields, field.tag = tag ∧ field.oneof = some group := by
  refine ⟨?_, fun tag => ⟨fun member => ?_, ?_⟩⟩
  · by_contra broken
    exact none_broken _ (.emptyGroup listed (not_exists.1 broken))
  · cases found : type.fieldTagged? tag with
    | none =>
      have broken := fieldTagged?_eq_none_iff.1 found
      exact absurd (.unknownMember listed member broken) (none_broken _)
    | some field =>
      obtain ⟨held, same⟩ := mem_of_fieldTagged? found
      refine ⟨field, held, same, by_contra fun broken => ?_⟩
      exact none_broken _ (.otherGroup listed member found broken)
  · rintro ⟨field, held, rfl, names⟩
    by_contra missing
    refine none_broken _ (.unlisted held names fun others listed' => ?_)
    exact Option.some.inj (listed.symm.trans listed') ▸ missing

/-- A message is well formed exactly if it breaks no rule. -/
theorem MessageType.wellFormed_iff {registry : Registry} {type : MessageType} :
    type.WellFormed registry ↔ ∀ violation, ¬type.Breaks registry violation := by
  constructor
  · intro formed violation breaks
    have once : ∀ field ∈ type.fields, ∀ other ∈ type.fields, field.tag = other.tag →
        field = other := fun field held other held' same =>
      List.inj_on_of_nodup_map formed.tags held held' same
    cases breaks with
    | identifier broken => exact broken formed.identifier
    | field held breaks => exact (Field.wellFormed_iff _).1 (formed.fields _ held) _ breaks
    | tag split same nearest =>
      have tags := formed.tags
      simp [split, List.nodup_append, same] at tags
    | name twice => exact twice.not_nodup formed.names
    | emptyGroup listed broken =>
      obtain ⟨tag, member⟩ := (formed.groups _ _ listed).1
      exact broken tag member
    | unknownMember listed member broken =>
      obtain ⟨field, held, same, -⟩ := ((formed.groups _ _ listed).2 _).1 member
      exact broken field held same
    | otherGroup listed member found broken =>
      obtain ⟨field, held, same, names⟩ := ((formed.groups _ _ listed).2 _).1 member
      obtain ⟨held', same'⟩ := mem_of_fieldTagged? found
      have first := once field held _ held' (same.trans same'.symm)
      exact broken (first ▸ names)
    | twoGroups listed listed' member member' found broken =>
      obtain ⟨field, held, same, names⟩ := ((formed.groups _ _ listed).2 _).1 member
      obtain ⟨other, held', same', names'⟩ := ((formed.groups _ _ listed').2 _).1 member'
      have both := once field held other held' (same.trans same'.symm)
      rw [both, names'] at names
      exact broken (Option.some.inj names).symm
    | unlisted held names broken =>
      obtain ⟨tags, listed⟩ := Option.isSome_iff_exists.1 (formed.grouped _ held _ names)
      exact broken tags listed (((formed.groups _ _ listed).2 _).2 ⟨_, held, rfl, names⟩)
    | declared twice => exact twice.not_nodup formed.declared
  · intro none_broken
    exact {
      identifier := by_contra fun broken => none_broken _ (.identifier broken)
      fields := fun field held => (Field.wellFormed_iff type.name).2 fun violation breaks =>
        none_broken _ (.field held breaks)
      tags := by
        by_contra twice
        obtain ⟨_, _, _, _, _, split, same, nearest⟩ := exists_nearest_of_not_nodup twice
        exact none_broken _ (.tag split same nearest)
      names := List.nodup_iff_forall_not_duplicate.2 fun name twice => none_broken _ (.name twice)
      groups := fun group tags listed => groups_of_not_breaks none_broken listed
      grouped := fun field held group names => by
        by_contra missing
        refine none_broken _ (.unlisted held names fun tags listed _ => missing ?_)
        exact Option.isSome_iff_exists.2 ⟨tags, listed⟩
      declared := List.nodup_iff_forall_not_duplicate.2 fun name twice =>
        none_broken _ (.declared twice) }

/-! ## Enums -/

/-- The rules for an enum. -/
structure EnumType.WellFormed (type : EnumType) : Prop where
  identifier : Name.isIdentifier type.simpleName
  first : ∃ first, type.values.head? = some first ∧ first.number = 0
  identifiers : ∀ value ∈ type.values, Name.isIdentifier value.name
  names : (type.values.map (·.name)).Nodup
  numbers : type.allowAlias ∨ (type.values.map (·.number)).Nodup
  name : ∀ value ∈ type.values, ¬type.reserved.names.contains value.name
  number : ∀ value ∈ type.values, ∀ range ∈ type.reserved.ranges,
    ¬(range.first ≤ value.number.toInt ∧ value.number.toInt ≤ range.last)

/-- An enum breaks a rule for enums. -/
inductive EnumType.Breaks (type : EnumType) : Violation → Prop
  | identifier (broken : ¬Name.isIdentifier type.simpleName) :
    Breaks type (.invalidName type.name type.simpleName)
  | empty (broken : type.values = []) : Breaks type (.emptyEnum type.name)
  | first {first : EnumValue} (leads : type.values.head? = some first)
    (broken : first.number ≠ 0) :
    Breaks type (.enumFirstValueNotZero type.name first.name first.number.toInt)
  | valueIdentifier {value : EnumValue} (held : value ∈ type.values)
    (broken : ¬Name.isIdentifier value.name) :
    Breaks type (.invalidName type.name value.name)
  | name {name : String} (twice : List.Duplicate name (type.values.map (·.name))) :
    Breaks type (.duplicateEnumName type.name name)
  | number {before after : List EnumValue} {first value : EnumValue}
    (strict : ¬type.allowAlias) (split : type.values = before ++ value :: after)
    (found : before.find? (·.number = value.number) = some first) :
    Breaks type (.duplicateEnumNumber type.name value.number.toInt first.name value.name)
  | reservedName {value : EnumValue} (held : value ∈ type.values)
    (broken : type.reserved.names.contains value.name) :
    Breaks type (.reservedEnumValue type.name value.name)
  | reservedNumber {value : EnumValue} {range : NumberRange} (held : value ∈ type.values)
    (among : range ∈ type.reserved.ranges)
    (broken : range.first ≤ value.number.toInt ∧ value.number.toInt ≤ range.last) :
    Breaks type (.reservedEnumValue type.name value.name)

/-- Values that share a number show up where the second of them is compared with the first. -/
theorem EnumType.nodup_numbers {type : EnumType} (strict : ¬type.allowAlias)
    (none_broken : ∀ violation, ¬type.Breaks violation) : (type.values.map (·.number)).Nodup := by
  by_contra twice
  obtain ⟨before, first, between, second, after, split, same, -⟩ :=
    exists_nearest_of_not_nodup twice
  have found : ((before ++ first :: between).find? (·.number = second.number)).isSome :=
    List.find?_isSome.2 ⟨first, by simp, decide_eq_true same⟩
  obtain ⟨other, found⟩ := Option.isSome_iff_exists.1 found
  exact none_broken _ (.number strict split found)

/-- An enum is well formed exactly if it breaks no rule. -/
theorem EnumType.wellFormed_iff {type : EnumType} :
    type.WellFormed ↔ ∀ violation, ¬type.Breaks violation := by
  constructor
  · intro formed violation breaks
    cases breaks with
    | identifier broken => exact broken formed.identifier
    | empty broken =>
      obtain ⟨first, leads, -⟩ := formed.first
      simp [broken] at leads
    | first leads broken =>
      obtain ⟨other, leads', zero⟩ := formed.first
      have same := Option.some.inj (leads'.symm.trans leads)
      exact broken (same ▸ zero)
    | valueIdentifier held broken => exact broken (formed.identifiers _ held)
    | name twice => exact twice.not_nodup formed.names
    | @number before after first value strict split found =>
      have numbers := formed.numbers.resolve_left strict
      rw [split, List.map_append, List.map_cons, List.nodup_append] at numbers
      have same : first.number = value.number := by simpa using List.find?_some found
      have held := List.mem_map_of_mem (f := EnumValue.number) (List.mem_of_find?_eq_some found)
      exact numbers.2.2 _ held _ List.mem_cons_self same
    | reservedName held broken => exact formed.name _ held broken
    | reservedNumber held among broken => exact formed.number _ held _ among broken
  · intro none_broken
    exact {
      identifier := by_contra fun broken => none_broken _ (.identifier broken)
      first := by
        cases values : type.values with
        | nil => exact absurd (.empty values) (none_broken _)
        | cons first rest =>
          refine ⟨first, rfl, by_contra fun broken => ?_⟩
          exact none_broken _ (.first (by rw [values]; rfl) broken)
      identifiers := fun value held =>
        by_contra fun broken => none_broken _ (.valueIdentifier held broken)
      names := List.nodup_iff_forall_not_duplicate.2 fun name twice => none_broken _ (.name twice)
      numbers := or_iff_not_imp_left.2 fun strict => nodup_numbers strict none_broken
      name := fun value held broken => none_broken _ (.reservedName held broken)
      number := fun value held range among broken =>
        none_broken _ (.reservedNumber held among broken) }

/-! ## Schemas -/

namespace Schema

/-- Every rule is kept, and no message must contain itself. -/
structure WellFormed (schema : Schema) : Prop where
  names : (schema.messages.map (·.simpleName) ++ schema.enums.map (·.simpleName)).Nodup
  messages : ∀ type ∈ schema.types, type.WellFormed (.ofSchema schema)
  enums : ∀ type ∈ schema.allEnums, type.WellFormed
  acyclic : ∀ name, ¬TransGen (Registry.ofSchema schema).Embeds name name

/-- A schema breaks a rule: its outermost types share a name, or some message or enum of it breaks
one. -/
inductive Breaks (schema : Schema) : Violation → Prop
  | name {name : String} (twice : List.Duplicate name
      (schema.messages.map (·.simpleName) ++ schema.enums.map (·.simpleName))) :
    Breaks schema (.duplicateNestedName schema.scope name)
  | message {type : MessageType} {violation : Violation} (held : type ∈ schema.types)
    (breaks : type.Breaks (.ofSchema schema) violation) : Breaks schema violation
  | enum {type : EnumType} {violation : Violation} (held : type ∈ schema.allEnums)
    (breaks : type.Breaks violation) : Breaks schema violation

/-- A schema is well formed exactly if it breaks no rule and no message leads back to itself. -/
theorem wellFormed_iff {schema : Schema} : schema.WellFormed ↔
    (∀ violation, ¬schema.Breaks violation) ∧
      ∀ name, ¬TransGen (Registry.ofSchema schema).Embeds name name := by
  constructor
  · intro formed
    refine ⟨fun violation breaks => ?_, formed.acyclic⟩
    cases breaks with
    | name twice => exact twice.not_nodup formed.names
    | message held breaks => exact MessageType.wellFormed_iff.1 (formed.messages _ held) _ breaks
    | enum held breaks => exact EnumType.wellFormed_iff.1 (formed.enums _ held) _ breaks
  · rintro ⟨none_broken, acyclic⟩
    exact {
      names := List.nodup_iff_forall_not_duplicate.2 fun name twice => none_broken _ (.name twice)
      messages := fun type held => MessageType.wellFormed_iff.2 fun violation breaks =>
        none_broken _ (.message held breaks)
      enums := fun type held => EnumType.wellFormed_iff.2 fun violation breaks =>
        none_broken _ (.enum held breaks)
      acyclic := acyclic }

end Schema

end Protobuf
