import Protobuf.Proofs.Value.Message

/-! # Depth of messages

How many messages a value has inside one another. The entries of a map count as messages, as they
do on the wire. What holds of a value as soon as it holds of the values inside it, holds of all
values. -/

namespace Protobuf

namespace Value

mutual

/-- How many messages stand inside one another in a value. -/
def levels : Value → Nat
  | .message ⟨_, fields, _⟩ => fieldLevels fields + 1
  | .list elements => elementLevels elements
  | .map entries => entryLevels entries
  | _ => 0

/-- The most levels of the values of fields. -/
def fieldLevels : List (Nat × Value) → Nat
  | [] => 0
  | (_, value) :: rest => max value.levels (fieldLevels rest)

/-- The most levels of elements. -/
def elementLevels : List Value → Nat
  | [] => 0
  | value :: rest => max value.levels (elementLevels rest)

/-- The most levels of entries, each a message that holds its key and its value. -/
def entryLevels : List (Value × Value) → Nat
  | [] => 0
  | (key, value) :: rest => max (max key.levels value.levels + 1) (entryLevels rest)

end

/-- The value holds no other values. -/
def IsAtom : Value → Prop
  | .message _ => False
  | .list _ => False
  | .map _ => False
  | _ => True

theorem IsAtom.levels {value : Value} (atom : value.IsAtom) : value.levels = 0 := by
  cases value <;> first | rfl | exact atom.elim

/-- What holds of a value as soon as it holds of the values inside it, holds of all values. -/
theorem induct {motive : Value → Prop}
    (message : ∀ source : Message, (∀ field ∈ source.fields, motive field.2) →
      motive (.message source))
    (list : ∀ elements, (∀ element ∈ elements, motive element) → motive (.list elements))
    (map : ∀ entries, (∀ entry ∈ entries, motive entry.1 ∧ motive entry.2) →
      motive (.map entries))
    (atom : ∀ value, value.IsAtom → motive value) (value : Value) : motive value := by
  have smaller {value : Value} (inside : ∀ other, sizeOf other < sizeOf value → motive other) :
      motive value := by
    cases value with
    | message source =>
      refine message source fun field held => inside _ ?_
      have here := List.sizeOf_lt_of_mem held
      obtain ⟨typeName, fields, unknown⟩ := source
      obtain ⟨tag, value⟩ := field
      simp only [Value.message.sizeOf_spec, MessageOf.mk.sizeOf_spec, Prod.mk.sizeOf_spec] at here ⊢
      omega
    | list elements =>
      refine list elements fun element held => inside _ ?_
      have here := List.sizeOf_lt_of_mem held
      simp only [Value.list.sizeOf_spec]
      omega
    | map entries =>
      refine map entries fun entry held => ?_
      have here := List.sizeOf_lt_of_mem held
      obtain ⟨key, value⟩ := entry
      simp only [Prod.mk.sizeOf_spec] at here
      constructor
      · refine inside key ?_
        simp only [Value.map.sizeOf_spec]
        omega
      · refine inside value ?_
        simp only [Value.map.sizeOf_spec]
        omega
    | _ => exact atom _ trivial
  exact (measure sizeOf).wf.induction value fun value inside => smaller inside

theorem levels_le_fieldLevels {tag : Nat} {value : Value} {fields : List (Nat × Value)}
    (held : (tag, value) ∈ fields) : value.levels ≤ fieldLevels fields := by
  induction fields with
  | nil => cases held
  | cons head rest ih =>
    rw [fieldLevels]
    rcases List.mem_cons.1 held with rfl | later
    · exact Nat.le_max_left _ _
    · exact Nat.le_trans (ih later) (Nat.le_max_right _ _)

theorem fieldLevels_le {fields : List (Nat × Value)} {bound : Nat}
    (each : ∀ field ∈ fields, field.2.levels ≤ bound) : fieldLevels fields ≤ bound := by
  induction fields with
  | nil => exact Nat.zero_le bound
  | cons head rest ih =>
    obtain ⟨here, later⟩ := List.forall_mem_cons.1 each
    rw [fieldLevels]
    exact Nat.max_le.2 ⟨here, ih later⟩

theorem levels_le_elementLevels {value : Value} {elements : List Value}
    (held : value ∈ elements) : value.levels ≤ elementLevels elements := by
  induction elements with
  | nil => cases held
  | cons head rest ih =>
    rw [elementLevels]
    rcases List.mem_cons.1 held with rfl | later
    · exact Nat.le_max_left _ _
    · exact Nat.le_trans (ih later) (Nat.le_max_right _ _)

/-- A key and a value of an entry stand below the entry. -/
theorem levels_lt_entryLevels {entry : Value × Value} {entries : List (Value × Value)}
    (held : entry ∈ entries) :
    entry.1.levels < entryLevels entries ∧ entry.2.levels < entryLevels entries := by
  induction entries with
  | nil => cases held
  | cons head rest ih =>
    rw [entryLevels]
    rcases List.mem_cons.1 held with rfl | later
    · omega
    · have := ih later
      omega

end Value

/-- How deep the messages inside a message nest. -/
def MessageOf.depth (message : MessageOf Value) : Nat :=
  Value.fieldLevels message.fields

theorem Value.levels_message (message : Message) :
    (Value.message message).levels = message.depth + 1 := by
  obtain ⟨typeName, fields, unknown⟩ := message
  rw [levels, MessageOf.depth]

theorem MessageOf.levels_le_depth {message : Message} {tag : Nat} {value : Value}
    (held : message.get? tag = some value) : value.levels ≤ message.depth :=
  Value.levels_le_fieldLevels (Keyed.mem_of_get?_eq_some held)

/-- What holds of a message as soon as it holds of the messages that nest less, holds of all
messages. -/
theorem MessageOf.induct {motive : Message → Prop}
    (nest : ∀ message : Message, (∀ inner : Message, inner.depth < message.depth → motive inner) →
      motive message) (message : Message) : motive message :=
  (measure MessageOf.depth).wf.induction message nest

end Protobuf
