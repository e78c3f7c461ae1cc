import Mathlib.Data.List.DropRight
import Protobuf.Proofs.Codec.Associative
import Protobuf.Proofs.Codec.Provenance

/-! # Fields of messages that are read

What a field of a message holds depends on the records that are standing, those of the field behind
the last one of a rival: their values are merged one after another. So a scalar is that of the last
of them, and an embedded message is all of their payloads merged. Main statements:
`CodecSet.gathers_foldlM` and `CodecSet.comesTo_foldlM`.

## Implementation notes

The records of a row that are standing change with each record that is added at its end, so
inductions on a row go from there. -/

namespace Protobuf

open Wire

/-! ## Records that are standing -/

namespace MessageType

variable {type : MessageType} {tag : Nat}

/-- The records of a field that no later record of a rival displaces. -/
def standing (type : MessageType) (tag : Nat) (row : List Record) : List Record :=
  (row.rtakeWhile fun record => ¬type.Rivals record.key.tag tag).filter (·.key.tag = tag)

/-- One more record of a row displaces what was standing, is standing with it, or is of another
field. -/
theorem standing_concat (type : MessageType) (tag : Nat) (row : List Record) (record : Record) :
    type.standing tag (row ++ [record]) =
      if type.Rivals record.key.tag tag then []
      else if record.key.tag = tag then type.standing tag row ++ [record]
      else type.standing tag row := by
  unfold standing
  by_cases rivals : type.Rivals record.key.tag tag
  · rw [List.rtakeWhile_concat_neg _ _ _ (by simpa using rivals), if_pos rivals, List.filter_nil]
  · rw [List.rtakeWhile_concat_pos _ _ _ (by simpa using rivals), if_neg rivals,
      List.filter_append]
    by_cases here : record.key.tag = tag <;> simp [here]

/-- Records of other fields that are no rivals leave what is standing as it is. -/
theorem standing_append (type : MessageType) (row : List Record) {back : List Record}
    (apart : ∀ record ∈ back, ¬type.Rivals record.key.tag tag ∧ record.key.tag ≠ tag) :
    type.standing tag (row ++ back) = type.standing tag row := by
  induction back using List.reverseRecOn with
  | nil => rw [List.append_nil]
  | append_singleton front record ih =>
    obtain ⟨before, last⟩ := List.forall_mem_append.1 apart
    obtain ⟨quiet, differs⟩ := List.forall_mem_singleton.1 last
    calc type.standing tag (row ++ (front ++ [record]))
      _ = type.standing tag (row ++ front ++ [record]) := by rw [List.append_assoc]
      _ = type.standing tag (row ++ front) := by
        rw [standing_concat, if_neg quiet, if_neg differs]
      _ = type.standing tag row := ih before

/-- Without records of a field none is standing. -/
theorem standing_of_absent (type : MessageType) {row : List Record}
    (absent : ∀ record ∈ row, record.key.tag ≠ tag) : type.standing tag row = [] := by
  apply List.filter_eq_nil_iff.2
  intro record held
  have among := (List.rtakeWhile_suffix _ _).subset held
  exact fun same => absent record among (of_decide_eq_true same)

/-- Without rivals every record of a field is standing. -/
theorem standing_of_quiet (quiet : ∀ other, ¬type.Rivals other tag) (row : List Record) :
    type.standing tag row = row.filter (·.key.tag = tag) := by
  have whole : row.rtakeWhile (fun record => ¬type.Rivals record.key.tag tag) = row :=
    List.rtakeWhile_eq_self_iff.2 fun record _ => by simpa using quiet record.key.tag
  rw [standing, whole]

/-- A field outside of every group has no rivals. -/
theorem Valid.not_rivals {registry : Registry} (valid : type.Valid registry) {field : Field}
    (declared : field ∈ type.fields) (ungrouped : field.oneof = none) (other : Nat) :
    ¬type.Rivals other field.tag := by
  rintro ⟨-, rival, -, field', declared', -, same, grouped, named⟩
  obtain rfl := valid.eq_of_tag declared' declared same
  simp [named, ungrouped] at grouped

end MessageType

/-! ## What a field gathers -/

namespace CodecSet

variable {schema : Schema} {limits : Limits} {set : CodecSet}
  {nested : String → Slice → Except CodecError Message} {form : FieldForm} {records : List Record}
  {held : Option Value}

/-- The values that records of a field stand for, merged one after another. -/
inductive Gathers (set : CodecSet) (nested : String → Slice → Except CodecError Message)
    (form : FieldForm) : List Record → Option Value → Prop
  | nothing : Gathers set nested form [] none
  | record {front : List Record} {held : Option Value} {record : Record} {value merged : Value}
    (gathers : Gathers set nested form front held)
    (reads : Reads set nested form record.value value)
    (done : mergeValue set held value = .ok merged) :
    Gathers set nested form (front ++ [record]) (some merged)

/-- A field is set exactly if there is a record for it. -/
theorem Gathers.isSome_iff (gathers : Gathers set nested form records held) :
    held.isSome ↔ records ≠ [] := by
  cases gathers with
  | nothing => simp
  | record => simp

/-- One more record changes what a field holds like it changes the records that are standing. -/
theorem gathers_applyRecord (accepted : schema.Accepted) {type : MessageType}
    (known : type ∈ schema.types) {field : Field} (declared : field ∈ type.fields)
    {row : List Record} {record : Record} {before after : Message}
    (gathers : Gathers ((ofSchema schema).withLimits limits) nested (.ofField type.name field)
      (type.standing field.tag row) (before.get? field.tag))
    (done : applyRecord ((ofSchema schema).withLimits limits) nested
      (.ofType (.ofSchema schema) type) before record = .ok after) :
    Gathers ((ofSchema schema).withLimits limits) nested (.ofField type.name field)
      (type.standing field.tag (row ++ [record])) (after.get? field.tag) := by
  have good := (coherent_ofSchema accepted).withLimits limits type.name _
    (get?_ofSchema_of_mem accepted known)
  have rivals : ∀ tag, (MessageCodec.ofType (.ofSchema schema) type).Rivals tag field.tag ↔
      type.Rivals tag field.tag := fun tag => rivals_ofType_iff accepted known
  rw [MessageType.standing_concat]
  cases planned : (MessageCodec.ofType (.ofSchema schema) type).reader? record.key.tag with
  | none =>
    -- The type does not declare the record, so it is neither of the field nor of a rival.
    rw [applyRecord_eq_addUnknown planned, Except.ok.injEq] at done
    have undeclared := (reader?_ofType_eq_none_iff accepted known).1 planned
    have quiet : ¬type.Rivals record.key.tag field.tag := by
      rintro ⟨-, rival, declared', -, -, same, -⟩
      exact undeclared rival declared' same
    rw [if_neg quiet, if_neg (undeclared field declared).symm, ← done, MessageOf.get?_addUnknown]
    exact gathers
  | some plan =>
    obtain ⟨value, merged, reads, step, rfl⟩ := (applyRecord_eq_ok_iff good planned).1 done
    rw [get?_set_clearOthers good planned]
    by_cases here : record.key.tag = field.tag
    · rw [here] at step
      obtain ⟨field', declared', same, rfl⟩ := (reader?_ofType_iff accepted known).1 planned
      obtain rfl := (accepted.valid known).eq_of_tag declared' declared (same.trans here)
      rw [if_neg fun rivals => rivals.1 here, if_pos here, if_pos here.symm]
      exact .record gathers reads step
    · rw [if_neg here, if_neg (Ne.symm here)]
      by_cases displaced : type.Rivals record.key.tag field.tag
      · rw [if_pos displaced, if_pos ((rivals _).2 displaced)]
        exact .nothing
      · rw [if_neg displaced, if_neg fun rival => displaced ((rivals _).1 rival)]
        exact gathers

/-- What a field of a message holds is gathered from the records that are standing. -/
theorem gathers_foldlM (accepted : schema.Accepted) {type : MessageType}
    (known : type ∈ schema.types) {field : Field} (declared : field ∈ type.fields)
    {row : List Record} {message : Message}
    (done : row.foldlM (applyRecord ((ofSchema schema).withLimits limits) nested
      (.ofType (.ofSchema schema) type)) (.new type.name) = .ok message) :
    Gathers ((ofSchema schema).withLimits limits) nested (.ofField type.name field)
      (type.standing field.tag row) (message.get? field.tag) := by
  induction row using List.reverseRecOn generalizing message with
  | nil =>
    cases done
    exact .nothing
  | append_singleton front record ih =>
    obtain ⟨middle, before, last⟩ := foldlM_append_eq_ok_iff.1 done
    rw [List.foldlM_cons, bind_eq_ok_iff] at last
    obtain ⟨after, last, ⟨⟩⟩ := last
    exact gathers_applyRecord accepted known declared (ih before) last

/-- A field of a message is set exactly if some record of it is standing. -/
theorem isSome_foldlM_iff (accepted : schema.Accepted) {type : MessageType}
    (known : type ∈ schema.types) {field : Field} (declared : field ∈ type.fields)
    {row : List Record} {message : Message}
    (done : row.foldlM (applyRecord ((ofSchema schema).withLimits limits) nested
      (.ofType (.ofSchema schema) type)) (.new type.name) = .ok message) :
    (message.get? field.tag).isSome ↔ type.standing field.tag row ≠ [] :=
  (gathers_foldlM accepted known declared done).isSome_iff

/-- Reading a message of a type is applying the records of a row to one with nothing set. -/
theorem exists_row_of_decodeWithin (accepted : schema.Accepted) {type : MessageType}
    (known : type ∈ schema.types) {levels start : Nat} {bytes : List UInt8} {message : Message}
    (done : decodeWithin ((ofSchema schema).withLimits limits) (levels + 1) type.name
      ⟨start, bytes⟩ = .ok message) :
    ∃ row, Record.Row limits.maxLength 0 bytes row ∧
      row.foldlM (applyRecord ((ofSchema schema).withLimits limits)
        (decodeWithin ((ofSchema schema).withLimits limits) levels)
        (.ofType (.ofSchema schema) type)) (.new type.name) = .ok message := by
  have coherent := (coherent_ofSchema accepted).withLimits limits
  obtain ⟨codec, row, found, apart, folded⟩ := (decodeWithin_eq_ok_iff coherent).1 done
  obtain ⟨other, known', named, rfl⟩ := (get?_ofSchema_iff accepted).1 found
  obtain rfl := accepted.eq_of_name known' known named
  exact ⟨row, apart, folded⟩

/-! ## Single values -/

/-- A payload holds a message of a type, read with the levels that are left. -/
def ReadsPart (set : CodecSet) (levels : Nat) (name : String) (record : Record) (part : Message) :
    Prop :=
  ∃ slice, record.value = .payload slice ∧ decodeWithin set levels name slice = .ok part

/-- What records come to as a single value of a type, with the levels that are left for embedded
messages. A scalar has the value of the last record, and is zero without any. The payloads of
messages are merged one after another, into a message with nothing set. -/
inductive ComesTo (set : CodecSet) (levels : Nat) : FieldType → List Record → Value → Prop
  | zero {type : FieldType} {scalar : Scalar} (kind : Scalar.ofType? type = some scalar) :
    ComesTo set levels type [] scalar.zero
  | last {type : FieldType} {scalar : Scalar} (kind : Scalar.ofType? type = some scalar)
    {front : List Record} {record : Record} {value : Value}
    (read : scalar.read? record.value = some (.ok value)) :
    ComesTo set levels type (front ++ [record]) value
  | merged {name : String} {records : List Record} {parts : List Message} {whole : Message}
    (each : List.Forall₂ (ReadsPart set levels name) records parts)
    (done : parts.foldlM (merge set) (.new name) = .ok whole) :
    ComesTo set levels (.message name) records (.message whole)

/-- One more scalar takes the place of what was there. -/
theorem comesTo_of_read {type : FieldType} {scalar : Scalar}
    (ofType : FieldForm.OfType type (.single scalar)) (levels : Nat) (front : List Record)
    {record : Record} {value merged : Value} (read : scalar.read? record.value = some (.ok value))
    (done : mergeValue set held value = .ok merged) :
    ComesTo set levels type (front ++ [record]) merged := by
  rw [mergeValue_atom (Scalar.holds_of_read? read).isAtom, Except.ok.injEq] at done
  subst done
  cases ofType with
  | builtin | enum => exact .last rfl read

/-- One more payload is merged into what was there. -/
theorem comesTo_of_part (coherent : set.Coherent) {levels : Nat} {name : String}
    {record : Record} {part : Message} {merged : Value}
    (comesTo : ComesTo set levels (.message name) records (held.getD (.message (.new name))))
    (reads : ReadsPart set levels name record part)
    (done : mergeValue set held (.message part) = .ok merged) :
    ComesTo set levels (.message name) (records ++ [record]) merged := by
  obtain ⟨slice, payload, decoded⟩ := id reads
  obtain ⟨named, conforms⟩ := readsConforming_decodeWithin coherent levels _ _ _ decoded
  generalize before : held.getD (.message (.new name)) = value at comesTo
  cases comesTo with
  | zero kind => cases kind
  | last kind => cases kind
  | @merged _ _ parts whole each folded =>
    have step : ∃ next, merge set whole part = .ok next ∧ merged = .message next := by
      cases held with
      | none =>
        rw [mergeValue_none, Except.ok.injEq] at done
        rw [Option.getD_none, Value.message.injEq] at before
        exact ⟨part, before ▸ new_merge coherent conforms named, done.symm⟩
      | some value =>
        rw [Option.getD_some] at before
        rw [before, mergeValue_message, map_eq_ok_iff] at done
        obtain ⟨next, done, rfl⟩ := done
        exact ⟨next, done, rfl⟩
    obtain ⟨next, merges, rfl⟩ := step
    refine .merged (List.rel_append each (.cons reads .nil)) ?_
    rw [foldlM_append_eq_ok_iff]
    exact ⟨whole, folded, by rw [List.foldlM_cons, merges]; rfl⟩

/-- A field of single values gathers what the records come to. -/
theorem Gathers.comesTo (coherent : set.Coherent) {levels : Nat} {type : FieldType}
    (ofType : FieldForm.OfType type form)
    (gathers : Gathers set (decodeWithin set levels) form records held) :
    ComesTo set levels type records (held.getD type.zero) := by
  induction gathers with
  | nothing =>
    cases ofType with
    | builtin type =>
      have kind : Scalar.ofType? (.builtin type) = some (.ofBuiltin type) := rfl
      exact .zero kind
    | enum name =>
      have kind : Scalar.ofType? (.enum name) = some (.numeric .enum) := rfl
      exact .zero kind
    | message name => exact .merged .nil rfl
  | @record front held record value merged gathers reads done ih =>
    rw [Option.getD_some]
    generalize raw : record.value = value' at reads
    cases reads with
    | single read => exact comesTo_of_read ofType levels front (raw ▸ read) done
    | message decoded =>
      cases ofType with
      | message name => exact comesTo_of_part coherent ih ⟨_, raw, decoded⟩ done
    | _ => cases ofType

/-- What a field of a single value reads as is what the records that are standing come to. -/
theorem comesTo_foldlM (accepted : schema.Accepted) {type : MessageType}
    (known : type ∈ schema.types) {field : Field} (declared : field ∈ type.fields)
    (single : field.isRepeated = false) {levels : Nat} {row : List Record} {message : Message}
    (done : row.foldlM (applyRecord ((ofSchema schema).withLimits limits)
      (decodeWithin ((ofSchema schema).withLimits limits) levels)
      (.ofType (.ofSchema schema) type)) (.new type.name) = .ok message) :
    ComesTo ((ofSchema schema).withLimits limits) levels field.type
      (type.standing field.tag row) ((message.get? field.tag).getD field.type.zero) := by
  rw [Field.isRepeated, Bool.or_eq_false_iff] at single
  obtain ⟨form, ofType⟩ := FieldForm.exists_ofType single.2
  have gathers := gathers_foldlM accepted known declared done
  rw [ofType.ofField single.1] at gathers
  exact gathers.comesTo ((coherent_ofSchema accepted).withLimits limits) ofType

end CodecSet

end Protobuf
