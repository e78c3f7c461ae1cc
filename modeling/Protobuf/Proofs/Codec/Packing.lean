import Protobuf.Proofs.Codec.Plays
import Protobuf.Proofs.Codec.Typing

/-! # Runs and single records

The numbers of a repeated field can be spread over records in any way, one in a record or a run of
them, however the field is declared: what is read are the numbers, in the order in which they stand.
Main statement: `decode_packing`.

## Implementation notes

`Batches` is any mixture of runs and single records. A record of either kind adds its numbers to
what the field holds, so a row of them adds all their numbers. -/

namespace Protobuf

open Wire

/-- Some bytes are a record with a tag that has numbers of a layout: a single one, or a run. -/
inductive Wire.Batch (maxLength tag : Nat) (layout : Word) : List UInt8 → List Nat → Prop
  | single {key bytes : List UInt8} {n : Nat} (key_form : Key.Spells key ⟨tag, layout.wireType⟩)
    (form : layout.Spells bytes n) : Batch maxLength tag layout (key ++ bytes) [n]
  | run {key bytes payload : List UInt8} {ns : List Nat}
    (key_form : Key.Spells key ⟨tag, .lengthDelimited⟩) (framed : Payload maxLength bytes payload)
    (run : layout.Run payload ns) : Batch maxLength tag layout (key ++ bytes) ns

/-- Some bytes are such records, one or more of them, that have some numbers altogether. -/
inductive Wire.Batches (maxLength tag : Nat) (layout : Word) : List UInt8 → List Nat → Prop
  | last {bytes : List UInt8} {ns : List Nat} (batch : Batch maxLength tag layout bytes ns) :
    Batches maxLength tag layout bytes ns
  | more {bytes rest : List UInt8} {ns ms : List Nat} (batch : Batch maxLength tag layout bytes ns)
    (others : Batches maxLength tag layout rest ms) :
    Batches maxLength tag layout (bytes ++ rest) (ns ++ ms)

/-- A batch is a record, and its numbers are the values that the record has for a repeated field. -/
theorem Wire.Batch.exists_record {maxLength tag : Nat} {kind : Numeric} {bytes : List UInt8}
    {ns : List Nat} (batch : Batch maxLength tag kind.layout bytes ns) :
    ∃ record : Record, record.Spells maxLength 0 bytes ∧ record.key.tag = tag ∧
      (Scalar.numeric kind).readAll? record.value = some (.ok (ns.map kind.ofWord)) := by
  cases batch with
  | @single key bytes n key_form form =>
    refine ⟨⟨0, _, .word kind.layout n, key ++ bytes⟩,
      ⟨rfl, rfl, key, bytes, rfl, key_form, .word form⟩, rfl, ?_⟩
    simp [Scalar.readAll?, Scalar.read?, RawValue.word?, Except.map]
  | @run key bytes payload ns key_form framed run =>
    cases framed with
    | @intro length payload form short =>
      exact ⟨⟨0, _, .payload ⟨0 + key.length + length.length, payload⟩, key ++ (length ++ payload)⟩,
        ⟨rfl, rfl, key, length ++ payload, rfl, key_form, .payload form short⟩, rfl,
        Scalar.readAll?_payload_iff.2 ⟨ns, run, rfl⟩⟩

theorem Wire.Batch.areRecords {maxLength tag : Nat} {kind : Numeric} {bytes : List UInt8}
    {ns : List Nat} (batch : Batch maxLength tag kind.layout bytes ns) : AreRecords bytes := by
  obtain ⟨record, form, -⟩ := batch.exists_record
  exact (Record.Row.singleton form).areRecords

theorem Wire.Batches.areRecords {maxLength tag : Nat} {kind : Numeric} {bytes : List UInt8}
    {ns : List Nat} (batches : Batches maxLength tag kind.layout bytes ns) : AreRecords bytes := by
  induction batches with
  | last batch => exact batch.areRecords
  | more batch others ih => exact batch.areRecords.append ih

namespace CodecSet

variable {set : CodecSet} {nested : String → Slice → Except CodecError Message}
  {codec : MessageCodec} {name : String} {plan : FieldPlan} {kind : Numeric} {tag : Nat}
  {bytes : List UInt8} {ns : List Nat} {schema : Schema}

/-- Values added to a field stand behind what it holds. -/
theorem exists_append_eq (message : Message) (tag : Nat) :
    ∃ elements, ∀ values, append message tag values =
      message.set tag (.list (elements ++ values)) := by
  unfold append
  split
  · rename_i elements held
    exact ⟨elements, fun values => rfl⟩
  · exact ⟨[], fun values => rfl⟩

/-- Values added to a field one after another are added together. -/
theorem append_append (message : Message) (tag : Nat) (values more : List Value) :
    append (append message tag values) tag more = append message tag (values ++ more) := by
  obtain ⟨elements, added⟩ := exists_append_eq message tag
  rw [added, added, append, MessageOf.get?_set_self]
  simp only [MessageOf.set_set, List.append_assoc]

/-- A record of a repeated number adds its values to the field, be the field declared as packed or
not. -/
theorem applyRecord_many {record : Record} (planned : codec.reader? record.key.tag = some plan)
    (many : FieldForm.Many (.single (.numeric kind)) plan.form) {values : List Value}
    (read : (Scalar.numeric kind).readAll? record.value = some (.ok values)) (message : Message) :
    applyRecord set nested codec message record = .ok (append message record.key.tag values) := by
  have tag := MessageCodec.reader?_tag planned
  simp only [applyRecord, planned, applyField, tag]
  generalize plan.form = form at many
  cases many with
  | repeated => simp only [read, expect, ok_bind, pure_eq_ok]
  | packed => simp only [read, expect, ok_bind, pure_eq_ok]

/-- A batch leads to a message with its numbers added to the field. -/
theorem plays_batch_iff (planned : codec.reader? tag = some plan)
    (many : FieldForm.Many (.single (.numeric kind)) plan.form)
    (batch : Batch set.limits.maxLength tag kind.layout bytes ns) {before after : Message} :
    Plays set nested codec bytes before after ↔
      after = append before tag (ns.map kind.ofWord) := by
  obtain ⟨record, form, rfl, read⟩ := batch.exists_record
  rw [plays_record_iff form, applyRecord_many planned many read, Except.ok.injEq,
    and_iff_right form, eq_comm]

/-- Batches lead to a message with all their numbers added to the field. -/
theorem plays_batches_iff (good : codec.Coherent set name) (anywhere : ReadsAnywhere nested)
    (planned : codec.reader? tag = some plan)
    (many : FieldForm.Many (.single (.numeric kind)) plan.form)
    (batches : Batches set.limits.maxLength tag kind.layout bytes ns) {before after : Message} :
    Plays set nested codec bytes before after ↔
      after = append before tag (ns.map kind.ofWord) := by
  induction batches generalizing before with
  | last batch => exact plays_batch_iff planned many batch
  | more batch others ih =>
    rw [plays_append_iff good anywhere batch.areRecords]
    simp only [plays_batch_iff planned many batch, ih, exists_eq_left, append_append,
      List.map_append]

/-- Records in front of batches lead to what the numbers are added to and the rest goes on from. -/
theorem decode_between_iff (coherent : set.Coherent) (found : set.get? name = some codec)
    (planned : codec.reader? tag = some plan)
    (many : FieldForm.Many (.single (.numeric kind)) plan.form) {front : List UInt8}
    (whole : AreRecords front) (batches : Batches set.limits.maxLength tag kind.layout bytes ns)
    {back : List UInt8} {message : Message} :
    set.decode name (front ++ bytes ++ back) = .ok message ↔
      (front ++ bytes ++ back).length ≤ set.limits.maxMessageSize ∧ ∃ middle,
        Plays set (decodeWithin set set.limits.maxDepth) codec front (.new name) middle ∧
        Plays set (decodeWithin set set.limits.maxDepth) codec back
          (append middle tag (ns.map kind.ofWord)) message := by
  have good := coherent name codec found
  have anywhere := readsAnywhere_decodeWithin coherent set.limits.maxDepth
  rw [decode_eq_ok_iff_plays coherent found, List.append_assoc,
    plays_append_iff good anywhere whole]
  simp only [plays_append_iff good anywhere batches.areRecords,
    plays_batches_iff good anywhere planned many batches, exists_eq_left]

/-- In the codecs of an accepted schema, numbers of a repeated field are read alike however they are
spread over runs and single records, as long as the limits admit the runs and the whole: either way
the same message is read, or none. What is read up to there has all of them added to the field, in
the order in which they stand. -/
theorem decode_packing (accepted : schema.Accepted) (limits : Limits) {type : MessageType}
    (held : type ∈ schema.types) {field : Field} (declared : field ∈ type.fields)
    (repeated : field.cardinality.isRepeated)
    (number : Scalar.ofType? field.type = some (.numeric kind)) {front bytes bytes' : List UInt8}
    (whole : AreRecords front) (batches : Batches limits.maxLength field.tag kind.layout bytes ns)
    (batches' : Batches limits.maxLength field.tag kind.layout bytes' ns) (back : List UInt8)
    (short : (front ++ bytes ++ back).length ≤ limits.maxMessageSize)
    (short' : (front ++ bytes' ++ back).length ≤ limits.maxMessageSize) :
    (∀ message,
      ((ofSchema schema).withLimits limits).decode type.name (front ++ bytes ++ back) =
          .ok message ↔
        ((ofSchema schema).withLimits limits).decode type.name (front ++ bytes' ++ back) =
          .ok message) ∧
    ∀ before, ((ofSchema schema).withLimits limits).decode type.name front = .ok before →
      ((ofSchema schema).withLimits limits).decode type.name (front ++ bytes) =
        .ok (append before field.tag (ns.map kind.ofWord)) := by
  have coherent := (coherent_ofSchema accepted).withLimits limits
  have found : ((ofSchema schema).withLimits limits).get? type.name = some _ :=
    (get?_ofSchema_iff accepted).2 ⟨type, held, rfl, rfl⟩
  have planned := (reader?_ofType_iff accepted held).2 ⟨field, declared, rfl, rfl⟩
  have many := (FieldForm.OfType.of_scalar number).many type.name repeated
  refine ⟨fun message => ?_, fun before done => ?_⟩
  · rw [decode_between_iff coherent found planned many whole batches,
      decode_between_iff coherent found planned many whole batches', limits_withLimits,
      and_iff_right short, and_iff_right short']
  · obtain ⟨-, leads⟩ := (decode_eq_ok_iff_plays coherent found).1 done
    rw [← List.append_nil (front ++ bytes)]
    refine (decode_between_iff coherent found planned many whole batches).2
      ⟨?_, before, leads, .nil _⟩
    simp only [List.length_append, List.length_nil, limits_withLimits] at short ⊢
    omega

/-- A node with a run of two marks, as they are declared, reads like one with two single ones. -/
theorem decode_packing_tree :
    ((ofSchema .tree).withLimits {}).decode "Node" ([8, 7] ++ [24, 2, 24, 4] ++ [40, 1]) =
        .ok ⟨"Node", [(1, .uint32 7), (3, .list [.int32 1, .int32 2]), (5, .bool true)], []⟩ ∧
      ((ofSchema .tree).withLimits {}).decode "Node" ([8, 7] ++ [26, 2, 2, 4]) =
        .ok (append ⟨"Node", [(1, .uint32 7)], []⟩ 3 [.int32 1, .int32 2]) := by
  have one : Word.varint.Spells [2] 2 := .varint (.last (by decide) (by decide))
  have two : Word.varint.Spells [4] 4 := .varint (.last (by decide) (by decide))
  have alone : Key.Spells [24] ⟨3, .varint⟩ :=
    ⟨.last (by decide) (by decide), by decide, by decide⟩
  have packed : Key.Spells [26] ⟨3, .lengthDelimited⟩ :=
    ⟨.last (by decide) (by decide), by decide, by decide⟩
  have framed : Payload ({} : Limits).maxLength ([2] ++ [2, 4]) [2, 4] :=
    .intro (.last (by decide) (by decide)) (by decide)
  have run : Batches ({} : Limits).maxLength 3 .varint [26, 2, 2, 4] [2, 4] :=
    .last (.run packed framed (.cons one (.cons two .nil)))
  have singles : Batches ({} : Limits).maxLength 3 .varint [24, 2, 24, 4] [2, 4] :=
    .more (.single alone one) (.last (.single alone two))
  have whole : AreRecords [8, 7] := areRecords_iff.2 ⟨5, _, by with_unfolding_all rfl⟩
  obtain ⟨same, added⟩ := decode_packing Schema.accepted_tree {} List.mem_cons_self
    (List.mem_cons_of_mem _ (List.mem_cons_of_mem _ List.mem_cons_self)) rfl rfl whole run singles
    [40, 1] (by decide) (by decide)
  exact ⟨(same _).1 (by with_unfolding_all rfl), added _ (by with_unfolding_all rfl)⟩

end CodecSet

end Protobuf
