import Protobuf.Proofs.Value.Depth

/-! # Normal form of messages

A message without the fields that say nothing: those that hold zero although their type does not
tell a zero from a field that is not set. Embedded messages, elements and the values of entries are
brought into this form as well, and nothing else is changed.

## Implementation notes

Which fields leave zeros out is a question for schemas, so it is asked of a function: it has the
name of a type and a tag. -/

namespace Protobuf

namespace Value

mutual

/-- The value with every message in it in normal form. -/
def normal (omits : String → Nat → Bool) : Value → Value
  | .message ⟨typeName, fields, unknown⟩ =>
    .message ⟨typeName, normalFields omits (omits typeName) fields, unknown⟩
  | .list elements => .list (normalElements omits elements)
  | .map entries => .map (normalEntries omits entries)
  | value => value

/-- Fields in normal form, without the zeros that are left out. -/
def normalFields (omits : String → Nat → Bool) (omitted : Nat → Bool) :
    List (Nat × Value) → List (Nat × Value)
  | [] => []
  | (tag, value) :: rest =>
    if omitted tag && value.isZero then normalFields omits omitted rest
    else (tag, value.normal omits) :: normalFields omits omitted rest

/-- Elements in normal form. -/
def normalElements (omits : String → Nat → Bool) : List Value → List Value
  | [] => []
  | value :: rest => value.normal omits :: normalElements omits rest

/-- Entries with their values in normal form. -/
def normalEntries (omits : String → Nat → Bool) : List (Value × Value) → List (Value × Value)
  | [] => []
  | (key, value) :: rest => (key, value.normal omits) :: normalEntries omits rest

end

variable {omits : String → Nat → Bool}

theorem normalElements_eq_map (elements : List Value) :
    normalElements omits elements = elements.map (normal omits) := by
  induction elements with
  | nil => rfl
  | cons value rest ih => rw [normalElements, ih, List.map_cons]

theorem normalEntries_eq_map (entries : List (Value × Value)) :
    normalEntries omits entries = entries.map fun entry => (entry.1, entry.2.normal omits) := by
  induction entries with
  | nil => rfl
  | cons entry rest ih => rw [normalEntries, ih, List.map_cons]

theorem normalFields_eq (omitted : Nat → Bool) (fields : List (Nat × Value)) :
    normalFields omits omitted fields =
      (fields.filter fun field => !(omitted field.1 && field.2.isZero)).map fun field =>
        (field.1, field.2.normal omits) := by
  induction fields with
  | nil => rfl
  | cons field rest ih =>
    rw [normalFields, List.filter_cons, ih]
    cases omitted field.1 && field.2.isZero <;> simp

theorem normal_of_isAtom {value : Value} (atom : value.IsAtom) : value.normal omits = value := by
  cases value <;> first | rfl | exact atom.elim

theorem normal_list_of_isAtom {elements : List Value} (atoms : ∀ value ∈ elements, value.IsAtom) :
    (Value.list elements).normal omits = .list elements := by
  have same : elements.map (normal omits) = elements.map id :=
    List.map_congr_left fun value held => normal_of_isAtom (atoms value held)
  rw [normal, normalElements_eq_map, same, List.map_id]

/-- The normal form of a value is zero exactly if the value is. -/
@[simp] theorem isZero_normal (value : Value) : (value.normal omits).isZero = value.isZero := by
  cases value with
  | message message =>
    obtain ⟨typeName, fields, unknown⟩ := message
    rfl
  | list elements =>
    simp only [normal, isZero, normalElements_eq_map, List.isEmpty_map]
  | map entries => simp only [normal, isZero, normalEntries_eq_map, List.isEmpty_map]
  | _ => rfl

end Value

/-- The message in normal form. -/
def MessageOf.normal (omits : String → Nat → Bool) (message : MessageOf Value) :
    MessageOf Value :=
  { message with fields := Value.normalFields omits (omits message.typeName) message.fields }

namespace MessageOf

variable {omits : String → Nat → Bool} {message : Message}

@[simp] theorem typeName_normal : (message.normal omits).typeName = message.typeName := rfl

@[simp] theorem unknown_normal : (message.normal omits).unknown = message.unknown := rfl

theorem normal_ordered (ordered : message.Ordered) : (message.normal omits).Ordered := by
  have filtered : ∀ fields : List (Nat × Value), Keyed.Ordered fields →
      Keyed.Ordered (Value.normalFields omits (omits message.typeName) fields) := by
    intro fields ordered
    rw [Value.normalFields_eq]
    exact List.pairwise_map.2 (ordered.filter _)
  exact filtered message.fields ordered

/-- A field of the normal form holds the normal form of its value, unless this is left out. -/
theorem get?_normal (ordered : message.Ordered) (tag : Nat) :
    (message.normal omits).get? tag = (message.get? tag).bind fun value =>
      if omits message.typeName tag && value.isZero then none else some (value.normal omits) := by
  have lookup : ∀ fields : List (Nat × Value), Keyed.Ordered fields →
      Keyed.get? tag (Value.normalFields omits (omits message.typeName) fields) =
        (Keyed.get? tag fields).bind fun value =>
          if omits message.typeName tag && value.isZero then none
          else some (value.normal omits) := by
    intro fields ordered
    induction fields with
    | nil => rfl
    | cons head rest ih =>
      obtain ⟨first, value⟩ := head
      obtain ⟨before, ordered⟩ := List.pairwise_cons.1 ordered
      have again := ih ordered
      rw [Value.normalFields, Keyed.get?]
      by_cases here : tag = first
      · subst here
        rw [Keyed.get?_eq_none_of_lt before, Option.bind_none] at again
        split
        · rename_i left_out
          rw [again, if_pos rfl, Option.bind_some, if_pos left_out]
        · rename_i kept
          rw [Keyed.get?, if_pos rfl, if_pos rfl, Option.bind_some, if_neg kept]
      · rw [if_neg here]
        split
        · exact again
        · rw [Keyed.get?, if_neg here, again]
  exact lookup message.fields ordered

/-- A message is another one in which some values may have been brought into normal form and some
zeros left out. -/
structure Trims (omits : String → Nat → Bool) (message trimmed : Message) : Prop where
  typeName : trimmed.typeName = message.typeName
  unknown : trimmed.unknown = message.unknown
  missing : ∀ tag, message.get? tag = none → trimmed.get? tag = none
  held : ∀ tag value, message.get? tag = some value →
    trimmed.get? tag = some value ∨ trimmed.get? tag = some (value.normal omits) ∨
      omits message.typeName tag ∧ value.isZero ∧ trimmed.get? tag = none

theorem Trims.refl (omits : String → Nat → Bool) (message : Message) :
    Trims omits message message :=
  ⟨rfl, rfl, fun _ missing => missing, fun _ _ held => .inl held⟩

theorem trims_normal (ordered : message.Ordered) : Trims omits message (message.normal omits) where
  typeName := rfl
  unknown := rfl
  missing tag missing := by rw [get?_normal ordered, missing, Option.bind_none]
  held tag value held := by
    rw [get?_normal ordered, held, Option.bind_some]
    split
    · rename_i left_out
      exact .inr (.inr (by simpa using left_out))
    · exact .inr (.inl rfl)

end MessageOf

theorem Value.normal_message {omits : String → Nat → Bool} (message : Message) :
    (Value.message message).normal omits = .message (message.normal omits) := by
  obtain ⟨typeName, fields, unknown⟩ := message
  rfl

/-- The normal form of a value is in normal form. -/
@[simp] theorem Value.normal_normal {omits : String → Nat → Bool} (value : Value) :
    (value.normal omits).normal omits = value.normal omits := by
  induction value using Value.induct with
  | message source inside =>
    rw [normal_message, normal_message]
    obtain ⟨typeName, fields, unknown⟩ := source
    simp only [MessageOf.normal, normalFields_eq]
    congr 2
    rw [List.filter_map, List.filter_eq_self.2, List.map_map]
    · refine List.map_congr_left fun field held => ?_
      have same := inside field (List.mem_filter.1 held).1
      simp [same]
    · intro field held
      simpa using (List.mem_filter.1 held).2
  | list elements inside =>
    rw [normal, normal, normalElements_eq_map, normalElements_eq_map, List.map_map]
    refine congrArg Value.list (List.map_congr_left fun element held => ?_)
    exact inside element held
  | map entries inside =>
    rw [normal, normal, normalEntries_eq_map, normalEntries_eq_map, List.map_map]
    refine congrArg Value.map (List.map_congr_left fun entry held => ?_)
    exact Prod.ext rfl (inside entry held).2
  | atom value atom => rw [normal_of_isAtom atom, normal_of_isAtom atom]

end Protobuf
