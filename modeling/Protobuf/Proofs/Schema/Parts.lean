import Mathlib.Logic.Relation
import Protobuf.Proofs.Schema.Typing

/-! # Parts of messages

What a value has inside it, at any depth: the values of the fields of a message, the elements of a
list, the keys and values of a map. Main statements: each message inside one that conforms conforms
itself, and each map inside it has distinct keys of one kind that maps may have. -/

namespace Protobuf

namespace Value

/-- A value holds another one directly. -/
inductive Part : Value → Value → Prop
  | field {message : Message} {tag : Nat} {value : Value} (held : message.get? tag = some value) :
    Part (.message message) value
  | element {elements : List Value} {element : Value} (held : element ∈ elements) :
    Part (.list elements) element
  | key {entries : List (Value × Value)} {entry : Value × Value} (held : entry ∈ entries) :
    Part (.map entries) entry.1
  | value {entries : List (Value × Value)} {entry : Value × Value} (held : entry ∈ entries) :
    Part (.map entries) entry.2

/-- A value is another one or has it inside it, at any depth. -/
def Contains : Value → Value → Prop :=
  Relation.ReflTransGen Part

end Value

/-- Values of built-in types hold no other values. -/
theorem Builtin.Holds.isAtom {type : Builtin} {value : Value} (holds : type.Holds value) :
    value.IsAtom := by
  cases value with
  | message | list | map => cases type <;> exact holds.elim
  | _ => trivial

namespace Schema

variable {schema : Schema}

/-- A single value of a type that is no message holds no other values. -/
theorem Holds.isAtom {type : FieldType} {value : Value} (holds : schema.Holds type value)
    (plain : ∀ name, type ≠ .message name) : value.IsAtom := by
  cases holds with
  | builtin holds => exact holds.isAtom
  | enum => trivial
  | message => exact absurd rfl (plain _)

/-- A value is a single one of some type, or what some field of the schema holds. -/
def Typed (schema : Schema) (value : Value) : Prop :=
  (∃ type, schema.Holds type value) ∨
    ∃ type ∈ schema.types, ∃ field ∈ type.fields, schema.FieldHolds field value

theorem Conforms.typed {message : Message} (conforms : schema.Conforms message) :
    schema.Typed (.message message) :=
  .inl ⟨_, .message rfl conforms⟩

/-- What is set in a message is what a field of its type holds. -/
theorem Conforms.typed_of_get? {message : Message} (conforms : schema.Conforms message) {tag : Nat}
    {value : Value} (found : message.get? tag = some value) : schema.Typed value := by
  cases conforms with
  | intro held _ _ declared holds =>
    obtain ⟨field, among, rfl⟩ := declared tag (by rw [found]; rfl)
    exact .inr ⟨_, held, field, among, holds field among value found⟩

/-- A single value has parts only if it is a message. -/
theorem Holds.typed_of_part {type : FieldType} {whole part : Value}
    (holds : schema.Holds type whole) (inside : whole.Part part) : schema.Typed part := by
  cases holds with
  | builtin holds => cases inside <;> exact holds.isAtom.elim
  | enum => cases inside
  | message _ conforms =>
    cases inside with
    | field found => exact conforms.typed_of_get? found

/-- The parts of what is typed are typed. -/
theorem Typed.of_part {whole part : Value} (typed : schema.Typed whole)
    (inside : whole.Part part) : schema.Typed part := by
  rcases typed with ⟨type, holds⟩ | ⟨_, _, field, _, holds⟩
  · exact holds.typed_of_part inside
  · cases holds with
    | single _ holds => exact holds.typed_of_part inside
    | list _ hold =>
      cases inside with
      | element held => exact .inl ⟨_, hold _ held⟩
    | map _ keys values =>
      cases inside with
      | key held => exact .inl ⟨_, keys _ held⟩
      | value held => exact .inl ⟨_, values _ held⟩

/-- Whatever is inside a conforming message is typed. -/
theorem Conforms.typed_of_contains {message : Message} (conforms : schema.Conforms message)
    {part : Value} (inside : Value.Contains (.message message) part) : schema.Typed part := by
  induction inside with
  | refl => exact conforms.typed
  | tail _ step ih => exact ih.of_part step

/-- Each message inside a conforming one conforms. -/
theorem Conforms.of_contains {message inner : Message} (conforms : schema.Conforms message)
    (inside : Value.Contains (.message message) (.message inner)) : schema.Conforms inner := by
  have single {type : FieldType} (holds : schema.Holds type (.message inner)) :
      schema.Conforms inner := by
    cases holds with
    | builtin holds => exact holds.isAtom.elim
    | message _ conforms => exact conforms
  rcases conforms.typed_of_contains inside with ⟨_, holds⟩ | ⟨_, _, _, _, holds⟩
  · exact single holds
  · cases holds with
    | single _ holds => exact single holds

/-- Each map inside a conforming message has distinct keys, of one built-in type that keys may
have. -/
theorem Conforms.keys_of_contains (accepted : schema.Accepted) {message : Message}
    (conforms : schema.Conforms message) {entries : List (Value × Value)}
    (inside : Value.Contains (.message message) (.map entries)) :
    (entries.map (·.1)).Nodup ∧
      ∃ key : Builtin, key.isValidMapKey ∧ ∀ entry ∈ entries, key.Holds entry.1 := by
  have single {type : FieldType} (holds : schema.Holds type (.map entries)) : False := by
    cases holds with
    | builtin holds => exact holds.isAtom.elim
  rcases conforms.typed_of_contains inside with ⟨_, holds⟩ | ⟨type, held, field, declared, holds⟩
  · exact (single holds).elim
  · cases holds with
    | single _ holds => exact (single holds).elim
    | @map _ key _ _ isMap keys _ distinct =>
      obtain ⟨-, valid, -⟩ := ((accepted.valid held).fields field declared).map _ _ isMap
      cases key with
      | builtin key =>
        refine ⟨distinct, key, valid, fun entry among => ?_⟩
        cases keys entry among with
        | builtin holds => exact holds
      | _ => cases valid

end Schema

end Protobuf
