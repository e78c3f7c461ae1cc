import Protobuf.Proofs.Codec.Plays
import Protobuf.Proofs.Codec.Typing

/-! # Records that change places

Records of different fields can come in either order, unless the fields are members of one group or
both tags are unknown. Main statement: `decode_exchange`.

## Implementation notes

A record changes its own field and clears the other members of its group; it looks at nothing but
its own field. Two records can therefore change places in front of any message with ordered fields,
and what stands around them in the buffer does not matter. -/

namespace Protobuf

open Wire

/-- Two tags differ, at least one of them is declared, and no group has a member with each. -/
structure MessageType.Apart (type : MessageType) (tag other : Nat) : Prop where
  ne : tag ≠ other
  declared : ∃ field ∈ type.fields, field.tag = tag ∨ field.tag = other
  groups : ∀ field ∈ type.fields, ∀ field' ∈ type.fields, field.tag = tag → field'.tag = other →
    field.oneof.isSome → field.oneof ≠ field'.oneof

namespace CodecSet

variable {set : CodecSet} {nested : String → Slice → Except CodecError Message}
  {codec : MessageCodec} {name : String} {record record' : Record} {before after : Message}
  {schema : Schema}

/-- A record of a field is applied alike whatever unknown records there are. -/
theorem applyRecord_addUnknown_iff (good : codec.Coherent set name)
    (planned : (codec.reader? record.key.tag).isSome) (unknown : List UnknownField) :
    applyRecord set nested codec (before.addUnknown unknown) record = .ok after ↔
      ∃ middle, applyRecord set nested codec before record = .ok middle ∧
        middle.addUnknown unknown = after := by
  obtain ⟨plan, planned⟩ := Option.isSome_iff_exists.1 planned
  simp only [applyRecord_eq_ok_iff good planned, MessageOf.get?_addUnknown,
    MessageCodec.clearOthers_addUnknown]
  constructor
  · rintro ⟨value, merged, reads, done, rfl⟩
    exact ⟨_, ⟨value, merged, reads, done, rfl⟩, rfl⟩
  · rintro ⟨middle, ⟨value, merged, reads, done, rfl⟩, rfl⟩
    exact ⟨value, merged, reads, done, rfl⟩

/-- Two fields that are no rivals can be set in either order. -/
theorem set_clearOthers_comm (good : codec.Coherent set name) {tag other : Nat}
    {plan plan' : FieldPlan} (planned : codec.reader? tag = some plan)
    (planned' : codec.reader? other = some plan') (ne : tag ≠ other)
    (apart : ¬codec.Rivals tag other) (ordered : before.Ordered) (value value' : Value) :
    (codec.clearOthers plan' ((codec.clearOthers plan before).set tag value)).set other value' =
      (codec.clearOthers plan ((codec.clearOthers plan' before).set other value')).set tag
        value := by
  have orderedSet {plan : FieldPlan} {tag : Nat} {value : Value} {message : Message}
      (ordered : message.Ordered) : ((codec.clearOthers plan message).set tag value).Ordered :=
    (MessageCodec.ordered_clearOthers codec plan ordered).set tag value
  refine MessageOf.Ordered.ext (orderedSet (orderedSet ordered)) (orderedSet (orderedSet ordered))
    (by simp) (by simp) fun wanted => ?_
  simp only [get?_set_clearOthers good planned, get?_set_clearOthers good planned']
  by_cases first : wanted = tag
  · subst first
    rw [if_neg ne, if_neg fun rivals => apart rivals.symm, if_pos rfl, if_pos rfl]
  · by_cases second : wanted = other
    · subst second
      rw [if_pos rfl, if_neg first, if_neg apart, if_pos rfl]
    · simp only [if_neg first, if_neg second]
      split <;> split <;> rfl

/-- A record of a field that follows one of a field that is no rival can come first. -/
theorem applyRecord_before (good : codec.Coherent set name)
    (planned : (codec.reader? record.key.tag).isSome)
    (planned' : (codec.reader? record'.key.tag).isSome) (ne : record.key.tag ≠ record'.key.tag)
    (apart : ¬codec.Rivals record.key.tag record'.key.tag) (ordered : before.Ordered)
    {middle : Message} (first : applyRecord set nested codec before record = .ok middle)
    (second : applyRecord set nested codec middle record' = .ok after) :
    ∃ other, applyRecord set nested codec before record' = .ok other ∧
      applyRecord set nested codec other record = .ok after := by
  obtain ⟨plan, planned⟩ := Option.isSome_iff_exists.1 planned
  obtain ⟨plan', planned'⟩ := Option.isSome_iff_exists.1 planned'
  obtain ⟨value, merged, reads, done, rfl⟩ := (applyRecord_eq_ok_iff good planned).1 first
  obtain ⟨value', merged', reads', done', rfl⟩ := (applyRecord_eq_ok_iff good planned').1 second
  -- Neither record sees what the other one changes.
  rw [get?_set_clearOthers good planned, if_neg ne.symm, if_neg apart] at done'
  refine ⟨_, (applyRecord_eq_ok_iff good planned').2 ⟨value', merged', reads', done', rfl⟩,
    (applyRecord_eq_ok_iff good planned).2 ⟨value, merged, reads, ?_, ?_⟩⟩
  · rwa [get?_set_clearOthers good planned', if_neg ne, if_neg fun rivals => apart rivals.symm]
  · exact set_clearOthers_comm good planned planned' ne apart ordered merged merged'

/-- Two records can be applied in either order if their tags differ and are no rivals and at least
one of them is that of a field. -/
theorem applyRecord_exchange (good : codec.Coherent set name)
    (ne : record.key.tag ≠ record'.key.tag)
    (known : (codec.reader? record.key.tag).isSome ∨ (codec.reader? record'.key.tag).isSome)
    (apart : ¬codec.Rivals record.key.tag record'.key.tag) (ordered : before.Ordered) :
    (∃ middle, applyRecord set nested codec before record = .ok middle ∧
        applyRecord set nested codec middle record' = .ok after) ↔
      ∃ middle, applyRecord set nested codec before record' = .ok middle ∧
        applyRecord set nested codec middle record = .ok after := by
  cases planned : codec.reader? record.key.tag with
  | none =>
    simp only [planned, Option.isSome_none, Bool.false_eq_true, false_or] at known
    simp only [applyRecord_eq_addUnknown planned, Except.ok.injEq, exists_eq_left',
      applyRecord_addUnknown_iff good known]
  | some plan =>
    cases planned' : codec.reader? record'.key.tag with
    | none =>
      have known : (codec.reader? record.key.tag).isSome := by rw [planned]; rfl
      simp only [applyRecord_eq_addUnknown planned', Except.ok.injEq, exists_eq_left',
        applyRecord_addUnknown_iff good known]
    | some plan' =>
      have known : (codec.reader? record.key.tag).isSome := by rw [planned]; rfl
      have known' : (codec.reader? record'.key.tag).isSome := by rw [planned']; rfl
      constructor
      · rintro ⟨middle, first, second⟩
        exact applyRecord_before good known known' ne apart ordered first second
      · rintro ⟨middle, first, second⟩
        exact applyRecord_before good known' known ne.symm (fun rivals => apart rivals.symm) ordered
          first second

/-- A record at the front of a buffer and the one behind it can change places. -/
theorem Plays.exchange (good : codec.Coherent set name) (anywhere : ReadsAnywhere nested)
    {tag other : Nat} {bytes bytes' more : List UInt8} (one : IsRecordOf tag bytes)
    (two : IsRecordOf other bytes') (ne : tag ≠ other)
    (known : (codec.reader? tag).isSome ∨ (codec.reader? other).isSome)
    (apart : ¬codec.Rivals tag other) (ordered : before.Ordered)
    (plays : Plays set nested codec (bytes ++ (bytes' ++ more)) before after) :
    Plays set nested codec (bytes' ++ (bytes ++ more)) before after := by
  obtain ⟨maxLength, record, form, rfl⟩ := one
  obtain ⟨maxLength', record', form', rfl⟩ := two
  have whole := (Record.Row.singleton form).areRecords
  have whole' := (Record.Row.singleton form').areRecords
  obtain ⟨middle, first, plays⟩ := (plays_append_iff good anywhere whole).1 plays
  obtain ⟨last, second, rest⟩ := (plays_append_iff good anywhere whole').1 plays
  obtain ⟨form, first⟩ := (plays_record_iff form).1 first
  obtain ⟨form', second⟩ := (plays_record_iff form').1 second
  obtain ⟨middle', second, first⟩ :=
    (applyRecord_exchange good ne known apart ordered).1 ⟨middle, first, second⟩
  refine (plays_append_iff good anywhere whole').2
    ⟨middle', (plays_record_iff form').2 ⟨form', second⟩, ?_⟩
  exact (plays_append_iff good anywhere whole).2
    ⟨last, (plays_record_iff form).2 ⟨form, first⟩, rest⟩

/-- In a buffer that a message is read from, a record can change places with the next one. -/
theorem decode_exchange_of_apart (coherent : set.Coherent) (found : set.get? name = some codec)
    {tag other : Nat} {front bytes bytes' back : List UInt8} (whole : AreRecords front)
    (one : IsRecordOf tag bytes) (two : IsRecordOf other bytes') (ne : tag ≠ other)
    (known : (codec.reader? tag).isSome ∨ (codec.reader? other).isSome)
    (apart : ¬codec.Rivals tag other) {message : Message}
    (done : set.decode name (front ++ bytes ++ bytes' ++ back) = .ok message) :
    set.decode name (front ++ bytes' ++ bytes ++ back) = .ok message := by
  have good := coherent name codec found
  have anywhere := readsAnywhere_decodeWithin coherent set.limits.maxDepth
  rw [decode_eq_ok_iff_plays coherent found, List.append_assoc, List.append_assoc,
    plays_append_iff good anywhere whole] at done ⊢
  obtain ⟨short, before, led, plays⟩ := done
  refine ⟨?_, before, led, ?_⟩
  · simp only [List.length_append] at short ⊢
    omega
  · exact plays.exchange good anywhere one two ne known apart
      (led.ordered good (MessageOf.ordered_new name))

/-- In the codecs of an accepted schema and under any limits, two records next to each other can
change places wherever they stand, if their tags differ, are not both unknown and are not those of
two members of a group: the same message is read, or none in either order. -/
theorem decode_exchange (accepted : schema.Accepted) (limits : Limits) {type : MessageType}
    (held : type ∈ schema.types) {tag other : Nat} (apart : type.Apart tag other)
    {front bytes bytes' : List UInt8} (whole : AreRecords front) (one : IsRecordOf tag bytes)
    (two : IsRecordOf other bytes') (back : List UInt8) (message : Message) :
    ((ofSchema schema).withLimits limits).decode type.name (front ++ bytes ++ bytes' ++ back) =
        .ok message ↔
      ((ofSchema schema).withLimits limits).decode type.name (front ++ bytes' ++ bytes ++ back) =
        .ok message := by
  have coherent := (coherent_ofSchema accepted).withLimits limits
  have found := (get?_ofSchema_iff accepted).2 ⟨type, held, rfl, rfl⟩
  have alone : ¬(MessageCodec.ofType (.ofSchema schema) type).Rivals tag other := by
    intro rivals
    obtain ⟨field, declared, field', declared', here, there, grouped, same⟩ :=
      exists_of_rivals_ofType rivals
    exact apart.groups field declared field' declared' here there grouped same
  have known : ((MessageCodec.ofType (.ofSchema schema) type).reader? tag).isSome ∨
      ((MessageCodec.ofType (.ofSchema schema) type).reader? other).isSome := by
    obtain ⟨field, declared, same⟩ := apart.declared
    have planned := (reader?_ofType_iff accepted held).2 ⟨field, declared, rfl, rfl⟩
    rcases same with rfl | rfl
    · exact .inl (by rw [planned]; rfl)
    · exact .inr (by rw [planned]; rfl)
  constructor
  · exact decode_exchange_of_apart coherent found whole one two apart.ne known alone
  · exact decode_exchange_of_apart coherent found whole two one apart.ne.symm known.symm
      fun rivals => alone rivals.symm

/-- Behind a child, a mark and a text are read in either order. -/
theorem decode_exchange_tree :
    ((ofSchema .tree).withLimits {}).decode "Node"
        ([18, 3, 10, 1, 97] ++ [34, 1, 98] ++ [24, 2] ++ []) =
      .ok ⟨"Node", [(2, .map [(.string "a", .message (.new "Node"))]), (3, .list [.int32 1]),
        (4, .string "b")], []⟩ := by
  have apart : ∀ type ∈ Schema.tree.messages, type.Apart 3 4 := by
    intro type held
    rw [List.mem_singleton.1 held]
    exact ⟨by decide, by decide, by decide⟩
  exact (decode_exchange Schema.accepted_tree {} List.mem_cons_self (apart _ List.mem_cons_self)
    (areRecords_iff.2 ⟨5, _, by with_unfolding_all rfl⟩)
    (isRecordOf_iff.2 ⟨5, _, by with_unfolding_all rfl, by with_unfolding_all rfl⟩)
    (isRecordOf_iff.2 ⟨5, _, by with_unfolding_all rfl, by with_unfolding_all rfl⟩) [] _).1
    (by with_unfolding_all rfl)

end CodecSet

end Protobuf
