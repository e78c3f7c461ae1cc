import Protobuf.Proofs.Codec.Associative
import Protobuf.Proofs.Codec.RoundTrip

/-! # Merging as a monoid

The messages of a type that conform are a monoid under merging, but for one thing: a member of a
group that is an embedded message can be displaced and come back. Which of its earlier parts are
left then depends on the grouping. Main statement: `merge_monoid`. -/

namespace Protobuf

/-- Two different fields of a type are members of one group. -/
def Schema.Rivals (schema : Schema) (name : String) (tag other : Nat) : Prop :=
  ∃ type ∈ schema.types, type.name = name ∧ type.Rivals tag other

namespace CodecSet

variable {schema : Schema} {limits : Limits}

/-- Rivals in the codecs of an accepted schema are rivals in the schema. -/
theorem rivals_ofSchema (accepted : schema.Accepted) {name : String} {tag other : Nat}
    (rivals : ((ofSchema schema).withLimits limits).Rivals name tag other) :
    schema.Rivals name tag other := by
  obtain ⟨codec, found, rivals⟩ := rivals
  obtain ⟨type, held, named, rfl⟩ := (get?_ofSchema_iff accepted).1 found
  exact ⟨type, held, named, (rivals_ofType_iff accepted held).1 rivals⟩

/-- A message with nothing set is neutral for merging, on both sides. Three conforming messages of
one type can be merged in either grouping, to the same message, unless the second one displaces an
embedded message of the first one that the last one would be merged into. -/
theorem merge_monoid (accepted : schema.Accepted) (limits : Limits) :
    (∀ message, schema.Conforms message →
      ((ofSchema schema).withLimits limits).merge message (.new message.typeName) = .ok message ∧
      ((ofSchema schema).withLimits limits).merge (.new message.typeName) message =
        .ok message) ∧
    ∀ a b c, schema.Conforms a → schema.Conforms b → schema.Conforms c →
      b.typeName = a.typeName → c.typeName = a.typeName →
      ¬Message.Displaces schema.Rivals a b c →
      ∃ ab bc abc, ((ofSchema schema).withLimits limits).merge a b = .ok ab ∧
        ((ofSchema schema).withLimits limits).merge b c = .ok bc ∧
        ((ofSchema schema).withLimits limits).merge ab c = .ok abc ∧
        ((ofSchema schema).withLimits limits).merge a bc = .ok abc := by
  have coherent := (coherent_ofSchema accepted).withLimits limits
  have same := @conforms_ofSchema_iff _ accepted limits
  constructor
  · intro message conforms
    obtain ⟨codec, found, -⟩ := (same.2 conforms).exists_codec
    exact ⟨merge_new found rfl, new_merge coherent (same.2 conforms) rfl⟩
  · intro a b c conforms conforms' conforms'' named named' stays
    rw [← same] at conforms conforms' conforms''
    obtain ⟨ab, front, namedFront, conformsFront⟩ := mergeable coherent conforms conforms' named
    obtain ⟨bc, back, -, -⟩ := mergeable coherent conforms' conforms'' (named'.trans named.symm)
    obtain ⟨abc, whole, -, -⟩ :=
      mergeable coherent conformsFront conforms'' (named'.trans namedFront.symm)
    have stays : ¬Message.Displaces ((ofSchema schema).withLimits limits).Rivals a b c :=
      fun displaces => stays (displaces.mono fun _ _ _ => rivals_ofSchema accepted)
    refine ⟨ab, bc, abc, front, back, whole, ?_⟩
    rw [← merge_assoc_of_not_displaces coherent conforms conforms' conforms'' named named' stays
      front back, whole]

end CodecSet

/-- Slots that hold a part, with a number and a name, or else a note. -/
def Schema.slots : Schema :=
  let held : Option String := some "held"
  let fields : List Field := [{ name := "part", tag := 1, type := .message "Part", oneof := held },
    { name := "note", tag := 2, type := .builtin .string, oneof := held }]
  { messages := [{ name := "Part", fields := [{ name := "id", tag := 1, type := .builtin .uint32 },
      { name := "name", tag := 2, type := .builtin .string }] },
    { name := "Slot", fields := fields, oneofs := .ofFields [] fields }] }

/-- The schema of slots is accepted. -/
theorem Schema.accepted_slots : slots.Accepted :=
  ⟨by decide, by decide⟩

/-- A slot that holds a part with a number. -/
def Message.numberedSlot : Message := ⟨"Slot", [(1, .message ⟨"Part", [(1, .uint32 7)], []⟩)], []⟩

/-- A slot that holds a part with a name. -/
def Message.namedSlot : Message := ⟨"Slot", [(1, .message ⟨"Part", [(2, .string "x")], []⟩)], []⟩

/-- A slot that holds a note. -/
def Message.notedSlot : Message := ⟨"Slot", [(2, .string "a")], []⟩

theorem Schema.conforms_slots : slots.Conforms .numberedSlot ∧ slots.Conforms .namedSlot ∧
    slots.Conforms .notedSlot := by
  have read (bytes : List UInt8) {message : Message}
      (done : ((CodecSet.ofSchema slots).withLimits {}).decode "Slot" bytes = .ok message) :
      slots.Conforms message := (CodecSet.conforms_of_decode accepted_slots {} done).2
  refine ⟨read [10, 2, 8, 7] ?_, read [10, 3, 18, 1, 120] ?_, read [18, 1, 97] ?_⟩ <;>
    with_unfolding_all rfl

namespace CodecSet

/-- A part with a number and one with a name, and then a note in their place, leave the note,
whether the parts are merged first or not. -/
theorem merge_monoid_slots : ∃ ab bc abc,
    ((ofSchema .slots).withLimits {}).merge .numberedSlot .namedSlot = .ok ab ∧
    ((ofSchema .slots).withLimits {}).merge .namedSlot .notedSlot = .ok bc ∧
    ((ofSchema .slots).withLimits {}).merge ab .notedSlot = .ok abc ∧
    ((ofSchema .slots).withLimits {}).merge .numberedSlot bc = .ok abc := by
  obtain ⟨numbered, named, noted⟩ := Schema.conforms_slots
  refine (merge_monoid Schema.accepted_slots {}).2 _ _ _ numbered named noted rfl rfl ?_
  -- The last slot holds a text only, so there is nothing to be displaced for.
  have text : ∀ tag after, Message.notedSlot.get? tag ≠ some (.message after) := by
    intro tag after
    by_cases here : tag = 2 <;> simp [Message.notedSlot, MessageOf.get?, Keyed.get?, here]
  intro displaces
  cases displaces with
  | here _ _ _ again => exact text _ _ again
  | inside _ _ again => exact text _ _ again

/-- A note between a part with a number and a part with a name: merged from the left, the number is
gone with the first part; merged from the right, the note is gone first and the number is left. -/
theorem merge_displaced : Schema.slots.Accepted ∧ Schema.slots.Conforms .numberedSlot ∧
    Schema.slots.Conforms .notedSlot ∧ Schema.slots.Conforms .namedSlot ∧
    ∃ ab bc left right,
      ((ofSchema .slots).withLimits {}).merge .numberedSlot .notedSlot = .ok ab ∧
      ((ofSchema .slots).withLimits {}).merge .notedSlot .namedSlot = .ok bc ∧
      ((ofSchema .slots).withLimits {}).merge ab .namedSlot = .ok left ∧
      ((ofSchema .slots).withLimits {}).merge .numberedSlot bc = .ok right ∧ left ≠ right := by
  obtain ⟨numbered, named, noted⟩ := Schema.conforms_slots
  refine ⟨Schema.accepted_slots, numbered, noted, named, .notedSlot, .namedSlot, .namedSlot,
    ⟨"Slot", [(1, .message ⟨"Part", [(1, .uint32 7), (2, .string "x")], []⟩)], []⟩,
    by with_unfolding_all rfl, by with_unfolding_all rfl, by with_unfolding_all rfl,
    by with_unfolding_all rfl, ?_⟩
  simp [Message.namedSlot]

end CodecSet

end Protobuf
