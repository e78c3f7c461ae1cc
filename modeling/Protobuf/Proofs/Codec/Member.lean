import Protobuf.Proofs.Codec.Field
import Protobuf.Proofs.Codec.Monoid

/-! # Groups of messages that are read

Of the members of a group, the one whose record comes last is set and no other one is. The records
of it that are standing are those behind the last record of another member. Main statement:
`CodecSet.decode_oneof`. -/

namespace Protobuf

open Wire

namespace MessageType

variable {registry : Registry} {type : MessageType} {group : String} {tag other : Nat}

/-- A tag is that of a member of a group. -/
def InGroup (type : MessageType) (group : String) (tag : Nat) : Prop :=
  ∃ field ∈ type.fields, field.oneof = some group ∧ field.tag = tag

/-- Different members of a group are rivals. -/
theorem InGroup.rivals (member : type.InGroup group tag) (member' : type.InGroup group other)
    (apart : tag ≠ other) : type.Rivals tag other := by
  obtain ⟨field, declared, grouped, rfl⟩ := member
  obtain ⟨field', declared', grouped', rfl⟩ := member'
  exact ⟨apart, field, declared, field', declared', rfl, rfl, by rw [grouped]; rfl,
    grouped.trans grouped'.symm⟩

namespace Valid

/-- The rivals of a member of a group are members of it. -/
theorem inGroup_of_rivals (valid : type.Valid registry) (member : type.InGroup group tag)
    (rivals : type.Rivals other tag) : type.InGroup group other := by
  obtain ⟨field, declared, grouped, rfl⟩ := member
  obtain ⟨-, rival, among, field', declared', rfl, same, -, together⟩ := rivals
  obtain rfl := valid.eq_of_tag declared' declared same
  exact ⟨rival, among, together.trans grouped, rfl⟩

variable {front back : List Record} {last : Record}

/-- What is standing of a member does not change behind the last record of its group. -/
theorem standing_behind (valid : type.Valid registry) (member : type.InGroup group tag)
    (quiet : ∀ record ∈ back, ¬type.InGroup group record.key.tag) :
    type.standing tag (front ++ last :: back) = type.standing tag (front ++ [last]) := by
  have apart : ∀ record ∈ back, ¬type.Rivals record.key.tag tag ∧ record.key.tag ≠ tag := by
    intro record held
    refine ⟨fun rivals => quiet record held (valid.inGroup_of_rivals member rivals), ?_⟩
    intro same
    exact quiet record held (same ▸ member)
  calc type.standing tag (front ++ last :: back)
    _ = type.standing tag (front ++ [last] ++ back) := by
      rw [List.append_assoc, List.singleton_append]
    _ = type.standing tag (front ++ [last]) := type.standing_append _ apart

/-- The last record of a group is the last one standing of its member. -/
theorem standing_last (valid : type.Valid registry) (member : type.InGroup group last.key.tag)
    (quiet : ∀ record ∈ back, ¬type.InGroup group record.key.tag) :
    type.standing last.key.tag (front ++ last :: back) =
      type.standing last.key.tag front ++ [last] := by
  rw [valid.standing_behind member quiet, standing_concat, if_neg fun rivals => rivals.1 rfl,
    if_pos rfl]

/-- Behind the last record of a group, records are standing of its member and of no other one. -/
theorem standing_ne_nil_iff (valid : type.Valid registry) (member : type.InGroup group tag)
    (member' : type.InGroup group last.key.tag)
    (quiet : ∀ record ∈ back, ¬type.InGroup group record.key.tag) :
    type.standing tag (front ++ last :: back) ≠ [] ↔ tag = last.key.tag := by
  by_cases same : tag = last.key.tag
  · rw [same, valid.standing_last member' quiet]
    simp
  · have displaced := member'.rivals member (Ne.symm same)
    rw [valid.standing_behind member quiet, standing_concat, if_pos displaced]
    simp [same]

end Valid

end MessageType

namespace CodecSet

variable {schema : Schema}

/-- Of a group, nothing is set in a message that was read from bytes without a record of the group.
Otherwise exactly the member of the last such record is set: a scalar to the value of this record,
and a message to the payloads of its own records behind the last one of another member, merged one
after another. -/
theorem decode_oneof (accepted : schema.Accepted) (limits : Limits) {type : MessageType}
    (known : type ∈ schema.types) (group : String) {bytes : List UInt8} {message : Message}
    (done : ((ofSchema schema).withLimits limits).decode type.name bytes = .ok message) :
    ∃ row, Record.Row limits.maxLength 0 bytes row ∧
      ((∀ record ∈ row, ¬type.InGroup group record.key.tag) →
        ∀ tag, type.InGroup group tag → message.get? tag = none) ∧
      ∀ front last back, row = front ++ last :: back → type.InGroup group last.key.tag →
        (∀ record ∈ back, ¬type.InGroup group record.key.tag) →
        (∀ tag, type.InGroup group tag →
          ((message.get? tag).isSome ↔ tag = last.key.tag)) ∧
        ∃ field ∈ type.fields, field.tag = last.key.tag ∧ ∃ kept value,
          type.standing field.tag row = kept ++ [last] ∧
          message.get? field.tag = some value ∧
          ComesTo ((ofSchema schema).withLimits limits) limits.maxDepth field.type
            (kept ++ [last]) value := by
  have valid := accepted.valid known
  obtain ⟨row, apart, folded⟩ :=
    exists_row_of_decodeWithin accepted known (decode_eq_ok_iff.1 done).2
  refine ⟨row, apart, ?_, ?_⟩
  · rintro none tag ⟨field, declared, grouped, rfl⟩
    have nothing : type.standing field.tag row = [] :=
      type.standing_of_absent fun record held same =>
        none record held ⟨field, declared, grouped, same.symm⟩
    apply Option.not_isSome_iff_eq_none.1
    exact fun isSet => (isSome_foldlM_iff accepted known declared folded).1 isSet nothing
  · rintro front last back rfl member quiet
    have set_iff : ∀ tag, type.InGroup group tag →
        ((message.get? tag).isSome ↔ tag = last.key.tag) := by
      intro tag member'
      rw [← valid.standing_ne_nil_iff member' member quiet]
      obtain ⟨field, declared, -, rfl⟩ := member'
      exact isSome_foldlM_iff accepted known declared folded
    obtain ⟨value, there⟩ := Option.isSome_iff_exists.1 ((set_iff _ member).2 rfl)
    refine ⟨set_iff, ?_⟩
    obtain ⟨field, declared, grouped, same⟩ := id member
    have standing : type.standing last.key.tag (front ++ last :: back) = _ :=
      valid.standing_last member quiet
    have single := (valid.fields field declared).isRepeated_eq_false (by rw [grouped]; rfl)
    have comesTo := comesTo_foldlM accepted known declared single folded
    rw [same, there, Option.getD_some, standing] at comesTo
    exact ⟨field, declared, same, _, value, same ▸ standing, same ▸ there, comesTo⟩

/-- A part, a note, and a part again in two halves. -/
def partedSlot : List Record :=
  [⟨0, ⟨1, .lengthDelimited⟩, .payload ⟨2, [8, 7]⟩, [10, 2, 8, 7]⟩,
    ⟨4, ⟨2, .lengthDelimited⟩, .payload ⟨6, [97]⟩, [18, 1, 97]⟩,
    ⟨7, ⟨1, .lengthDelimited⟩, .payload ⟨9, [8, 1]⟩, [10, 2, 8, 1]⟩,
    ⟨11, ⟨1, .lengthDelimited⟩, .payload ⟨13, [18, 1, 120]⟩, [10, 3, 18, 1, 120]⟩]

/-- The note displaces the first part, and the halves behind it are merged. -/
theorem decode_oneof_slot :
    ((ofSchema .slots).withLimits {}).decode "Slot" (partedSlot.flatMap (·.raw)) =
      .ok ⟨"Slot", [(1, .message ⟨"Part", [(1, .uint32 1), (2, .string "x")], []⟩)], []⟩ ∧
    ComesTo ((ofSchema .slots).withLimits {}) 100 (.message "Part") (partedSlot.drop 2)
      (.message ⟨"Part", [(1, .uint32 1), (2, .string "x")], []⟩) := by
  have done : ((ofSchema .slots).withLimits {}).decode "Slot" (partedSlot.flatMap (·.raw)) =
      .ok ⟨"Slot", [(1, .message ⟨"Part", [(1, .uint32 1), (2, .string "x")], []⟩)], []⟩ := by
    with_unfolding_all rfl
  have parts : split 67108864 (.ofSlice ⟨0, partedSlot.flatMap (·.raw)⟩) = (partedSlot, none) := by
    with_unfolding_all rfl
  obtain ⟨row, apart, -, winner⟩ := decode_oneof Schema.accepted_slots {}
    (List.mem_cons_of_mem _ List.mem_cons_self) "held" done
  obtain rfl := apart.unique (split_eq_none_iff.1 parts)
  obtain ⟨-, field, declared, same, kept, value, standing, there, comesTo⟩ :=
    winner (partedSlot.take 3) _ [] rfl ⟨_, List.mem_cons_self, rfl, rfl⟩ (List.forall_mem_nil _)
  refine ⟨done, ?_⟩
  rw [← standing] at comesTo
  rcases List.mem_cons.1 declared with rfl | other
  · cases there
    exact comesTo
  · rw [List.mem_singleton.1 other] at same
    cases same

end CodecSet

end Protobuf
