import Protobuf.Proofs.Codec.Limits
import Protobuf.Proofs.Wire.Truncation

/-! # Reading what is left of a message

Where the bytes of a message that can be read are cut off between two of its records, what is left
can be read as well; anywhere else, the cut is noticed as such. Main statement: `decode_take`.

## Implementation notes

A cut can only be mistaken for another fault if the key in front of it is at fault, and it is not:
the whole record was read. So nothing is asked of the codecs. -/

namespace Protobuf

open Wire

namespace Scalar

variable {scalar : Scalar} {raw : RawValue}

/-- Only records of the wire type of a kind are read as a value of it. -/
theorem wireType_of_read? {result : Except Error Value} (read : scalar.read? raw = some result) :
    raw.wireType = scalar.wireType := by
  cases raw with
  | payload slice =>
    cases scalar with
    | numeric kind => cases read
    | string | bytes => rfl
  | word layout n =>
    cases scalar with
    | numeric kind =>
      obtain ⟨word, found, -⟩ := Option.map_eq_some_iff.1 read
      obtain ⟨rfl, -⟩ := Option.ite_none_right_eq_some.1 found
      rfl
    | string | bytes => cases read

/-- Only records of the wire type of a kind, or runs of it, are read as values of it. -/
theorem wireType_of_readAll? {result : Except Error (List Value)}
    (read : scalar.readAll? raw = some result) :
    raw.wireType = scalar.wireType ∨ scalar.isPackable ∧ raw.wireType = .lengthDelimited := by
  unfold readAll? at read
  split at read
  · exact .inr ⟨rfl, rfl⟩
  · obtain ⟨single, read, -⟩ := Option.map_eq_some_iff.1 read
    exact .inl (wireType_of_read? read)

end Scalar

namespace CodecSet

variable {set : CodecSet} {nested : String → Slice → Except CodecError Message}
  {codec : MessageCodec} {name : String} {plan : FieldPlan} {record : Record}
  {before after message : Message} {levels count : Nat} {slice : Slice}

/-- A record that is applied has a wire type that its field accepts. -/
theorem accepts_of_applyRecord (typed : record.key.wireType = record.value.wireType)
    (planned : codec.reader? record.key.tag = some plan)
    (step : applyRecord set nested codec before record = .ok after) :
    plan.accepts record.key.wireType := by
  have payload {inner : Slice} (held : expect codec plan record (record.value.payload?.map .ok) =
      .ok inner) : record.key.wireType = .lengthDelimited := by
    rw [typed, payload?_map_eq_ok_iff.1 (expect_eq_ok_iff.1 held)]
    rfl
  simp only [applyRecord, planned, applyField] at step
  unfold FieldPlan.accepts
  cases form : plan.form with
  | single scalar =>
    simp only [form, bind_eq_ok_iff] at step
    obtain ⟨value, read, -⟩ := step
    have same := Scalar.wireType_of_read? (expect_eq_ok_iff.1 read)
    simp [FieldForm.singleWireType, typed, same]
  | repeated scalar =>
    simp only [form, bind_eq_ok_iff] at step
    obtain ⟨values, read, -⟩ := step
    rcases Scalar.wireType_of_readAll? (expect_eq_ok_iff.1 read) with same | ⟨packable, same⟩
    · simp [FieldForm.singleWireType, typed, same]
    · simp [FieldForm.acceptsPacked, typed, same, packable]
  | packed kind =>
    simp only [form, bind_eq_ok_iff] at step
    obtain ⟨values, read, -⟩ := step
    rcases Scalar.wireType_of_readAll? (expect_eq_ok_iff.1 read) with same | ⟨-, same⟩
    · simp [FieldForm.singleWireType, typed, same, Scalar.wireType]
    · simp [FieldForm.acceptsPacked, typed, same]
  | message type | messages type | map entry =>
    simp only [form, bind_eq_ok_iff] at step
    obtain ⟨inner, held, -⟩ := step
    simp [FieldForm.singleWireType, payload held]

/-- The key of a record that is applied is not at fault. -/
theorem keyFault?_eq_none {offset : Nat} (typed : record.key.wireType = record.value.wireType)
    (step : applyRecord set nested codec before record = .ok after) :
    keyFault? set codec offset record.key = none := by
  unfold keyFault?
  cases planned : codec.reader? record.key.tag with
  | none => rfl
  | some plan =>
    simp only [accepts_of_applyRecord typed planned step, if_true]
    cases form : plan.form with
    | map entry =>
      simp only [applyRecord, planned, applyField, form, bind_eq_ok_iff] at step
      obtain ⟨inner, -, entryCodec, found, -⟩ := step
      cases there : set.get? entry with
      | none =>
        rw [CodecSet.codec, there] at found
        cases found
      | some codec => simp only [there, Option.isSome_some, if_true]
    | _ => rfl

/-- A buffer that breaks off behind records that can be applied ends with the error of the break. -/
theorem decodeOver_eq_breakError {records : List Record} {broken : Break}
    (found : set.get? name = some codec)
    (parts : split set.limits.maxLength (.ofSlice slice) = (records, some broken))
    (led : records.foldlM (applyRecord set nested codec) (.new codec.message) = .ok before) :
    decodeOver set nested name slice = .error (breakError set codec broken) := by
  rw [decodeOver, codec_eq_ok found, ok_bind, parts]
  simp only [led, ok_bind]
  rfl

/-- Bytes that are left of a message up to the end of a record, or none, are read. -/
theorem exists_decodeOver_take {bytes : List UInt8}
    (done : decodeOver set nested name ⟨0, bytes⟩ = .ok message)
    (ends : count = 0 ∨ EndsRecord bytes count) :
    ∃ part, decodeOver set nested name ⟨0, bytes.take count⟩ = .ok part := by
  obtain ⟨codec, records, found, row, folded⟩ := decodeOver_eq_ok_iff.1 done
  rcases ends with rfl | ends
  · exact ⟨_, decodeOver_eq_ok_iff.2 ⟨codec, [], found, .nil, rfl⟩⟩
  · obtain ⟨record, held, ends⟩ := row.endsRecord_iff.1 ends
    rw [← Nat.zero_add count] at ends
    obtain ⟨front, back, rfl, first⟩ := row.exists_take_of_mem held ends
    obtain ⟨part, led, -⟩ := foldlM_append_eq_ok_iff.1 folded
    exact ⟨part, decodeOver_eq_ok_iff.2 ⟨codec, front, found, first, led⟩⟩

/-- Bytes that are left of a message when a record is cut are not read: they are too few. -/
theorem decodeOver_take_of_cut {bytes : List UInt8}
    (done : decodeOver set nested name ⟨0, bytes⟩ = .ok message) (le : count ≤ bytes.length)
    (within : ¬(count = 0 ∨ EndsRecord bytes count)) :
    ∃ error : Error, decodeOver set nested name ⟨0, bytes.take count⟩ = .error (.malformed error) ∧
      error.IsCut count := by
  obtain ⟨codec, records, found, row, folded⟩ := decodeOver_eq_ok_iff.1 done
  rcases row.ends_or_cuts le with zero | ⟨record, held, ends⟩ |
    ⟨front, record, back, used, part, more, rfl, first, form, pos, short, taken, rfl⟩
  · exact absurd (.inl zero) within
  · exact absurd (.inr (row.endsRecord_iff.2 ⟨record, held, ends.trans (Nat.zero_add _)⟩)) within
  · obtain ⟨before, after, led, step, -⟩ := foldlM_append_cons_eq_ok_iff.1 folded
    let start : Cursor := .ofSlice ⟨0, bytes.take (used.length + more)⟩
    let middle : Cursor := start.past used (part.take more)
    have place : middle.offset = 0 + used.length := Cursor.offset_past ..
    have parts : split set.limits.maxLength start = _ := split_of_row first taken
    have more_left : middle.rest.isEmpty = false := by
      simp only [middle, Cursor.rest_past, List.isEmpty_eq_false_iff, ne_eq, List.take_eq_nil_iff]
      rintro (rfl | rfl)
      · exact absurd pos (Nat.lt_irrefl _)
      · exact absurd short (Nat.not_lt_zero _)
    obtain ⟨error, cut, broken⟩ := (place ▸ form).nextRecord_take short (rfl : middle.rest = _)
    rw [place, Nat.zero_add] at cut
    refine ⟨error, ?_, cut⟩
    rcases broken with broken | broken
    · rw [split_of_error more_left broken, List.append_nil] at parts
      exact decodeOver_eq_breakError found parts led
    · rw [split_of_error more_left broken, List.append_nil] at parts
      rw [decodeOver_eq_breakError found parts led, breakError_value,
        keyFault?_eq_none form.wireType_eq step, Option.getD_none]

/-- Of a message that can be read, any bytes at the front can be read that end with one of its
records, or none at all. Of all others, reading says that bytes are missing: a number or a payload
breaks off, no later than the bytes do. -/
theorem decode_take {name : String} {bytes : List UInt8} {message : Message}
    (done : set.decode name bytes = .ok message) {count : Nat} (lt : count < bytes.length) :
    ((∃ part, set.decode name (bytes.take count) = .ok part) ↔
      count = 0 ∨ EndsRecord bytes count) ∧
    (¬(count = 0 ∨ EndsRecord bytes count) →
      ∃ error : Error, set.decode name (bytes.take count) = .error (.malformed error) ∧
        error.IsCut count) := by
  obtain ⟨short, whole⟩ := decode_eq_ok_iff.1 done
  have fits : (bytes.take count).length ≤ set.limits.maxMessageSize :=
    Nat.le_trans (List.length_take_le' ..) short
  have read : set.decode name (bytes.take count) =
      decodeOver set (decodeWithin set set.limits.maxDepth) name ⟨0, bytes.take count⟩ :=
    if_neg (Nat.not_lt.2 fits)
  have cut := decodeOver_take_of_cut whole (Nat.le_of_lt lt)
  rw [read]
  refine ⟨⟨fun ⟨part, done⟩ => ?_, exists_decodeOver_take whole⟩, cut⟩
  by_contra within
  obtain ⟨error, failed, -⟩ := cut within
  rw [done] at failed
  cases failed

/-- Of a node with a number and a child, the number alone is read, and five bytes are too few: the
child breaks off behind its length. -/
theorem decode_take_tree :
    (∃ part, ((ofSchema .tree).withLimits {}).decode "Node" [8, 0] = .ok part) ∧
      ∃ error : Error, ((ofSchema .tree).withLimits {}).decode "Node" [8, 0, 18, 7, 10] =
        .error (.malformed error) ∧ error.IsCut 5 := by
  let bytes : List UInt8 := [8, 0, 18, 7, 10, 1, 97, 18, 2, 40, 1]
  let number : Record := ⟨0, ⟨1, .varint⟩, .word .varint 0, [8, 0]⟩
  let child : Record :=
    ⟨2, ⟨2, .lengthDelimited⟩, .payload ⟨4, [10, 1, 97, 18, 2, 40, 1]⟩, bytes.drop 2⟩
  have row : Record.Row 100 0 bytes [number, child] :=
    split_eq_none_iff.1 (show split 100 (.ofSlice ⟨0, bytes⟩) = _ by with_unfolding_all rfl)
  have done : ((ofSchema .tree).withLimits {}).decode "Node"
      [8, 0, 18, 7, 10, 1, 97, 18, 2, 40, 1] = .ok ⟨"Node", [(1, .uint32 0),
        (2, .map [(.string "a", .message ⟨"Node", [(5, .bool true)], []⟩)])], []⟩ := by
    with_unfolding_all rfl
  have between : EndsRecord bytes 2 := row.endsRecord_iff.2 ⟨number, List.mem_cons_self, rfl⟩
  have within : ¬(5 = 0 ∨ EndsRecord bytes 5) := by
    rw [row.endsRecord_iff]
    decide
  have read := (decode_take done (show 2 < bytes.length by decide)).1.2 (.inr between)
  have failed := (decode_take done (show 5 < bytes.length by decide)).2 within
  exact ⟨read, failed⟩

end CodecSet

end Protobuf
