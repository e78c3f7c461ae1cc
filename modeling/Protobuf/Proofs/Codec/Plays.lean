import Protobuf.Proofs.Codec.Decode

/-! # Records that lead from one message to another

Reading a message is being led to it by its records, from a message with nothing set. What the
bytes in front lead to is all that the bytes behind them start from, so bytes that are records can
be considered apart from what stands around them. Main statements: `plays_append_iff` and
`decode_eq_ok_iff_plays`. -/

namespace Protobuf

open Wire

namespace CodecSet

variable {set : CodecSet} {nested : String → Slice → Except CodecError Message}
  {codec : MessageCodec} {name : String}

/-- Some bytes are a row of records that lead from one message to another. -/
def Plays (set : CodecSet) (nested : String → Slice → Except CodecError Message)
    (codec : MessageCodec) (bytes : List UInt8) (before after : Message) : Prop :=
  ∃ records, Record.Row set.limits.maxLength 0 bytes records ∧
    records.foldlM (applyRecord set nested codec) before = .ok after

theorem Plays.nil (message : Message) : Plays set nested codec [] message message :=
  ⟨[], .nil, rfl⟩

/-- Bytes that lead to a message and bytes that lead on from there can be put together. -/
theorem Plays.append (coherent : codec.Coherent set name) (anywhere : ReadsAnywhere nested)
    {bytes more : List UInt8} {first second third : Message}
    (plays : Plays set nested codec bytes first second)
    (plays' : Plays set nested codec more second third) :
    Plays set nested codec (bytes ++ more) first third := by
  obtain ⟨records, row, done⟩ := plays
  obtain ⟨records', row', done'⟩ := plays'
  refine ⟨records ++ records'.map (·.shift bytes.length), row.append (row'.shift bytes.length), ?_⟩
  exact foldlM_append_eq_ok_iff.2 ⟨second, done, (foldlM_shift_iff coherent anywhere _).2 done'⟩

/-- Where bytes that are records stand in front of others, the former lead to what the latter lead
on from. -/
theorem plays_append_iff (good : codec.Coherent set name) (anywhere : ReadsAnywhere nested)
    {bytes more : List UInt8} (whole : AreRecords bytes) {first third : Message} :
    Plays set nested codec (bytes ++ more) first third ↔
      ∃ second, Plays set nested codec bytes first second ∧
        Plays set nested codec more second third := by
  constructor
  · rintro ⟨records, row, done⟩
    -- The bytes in front are the same records under whatever limit they are known to be some.
    obtain ⟨maxLength, front, there⟩ := whole
    obtain ⟨back, rfl, here, after⟩ := row.of_prefix there
    obtain ⟨near, behind, rfl⟩ := after.of_shift
    obtain ⟨second, led, done⟩ := foldlM_append_eq_ok_iff.1 done
    exact ⟨second, ⟨front, here, led⟩, near, behind, (foldlM_shift_iff good anywhere _).1 done⟩
  · rintro ⟨second, plays, plays'⟩
    exact plays.append good anywhere plays'

/-- A record alone leads to what it is applied to. -/
theorem plays_record_iff {maxLength : Nat} {bytes : List UInt8} {record : Record}
    (form : record.Spells maxLength 0 bytes) {first second : Message} :
    Plays set nested codec bytes first second ↔
      record.Spells set.limits.maxLength 0 bytes ∧
        applyRecord set nested codec first record = .ok second := by
  constructor
  · rintro ⟨records, row, done⟩
    rw [← List.append_nil bytes] at row
    obtain ⟨back, rfl, here, after⟩ := row.of_prefix (.singleton form)
    obtain rfl := after.unique .nil
    obtain ⟨next, step, done⟩ := bind_eq_ok_iff.1 done
    cases done
    exact ⟨Record.Row.singleton_iff.1 here, step⟩
  · rintro ⟨form, done⟩
    refine ⟨[record], .singleton form, ?_⟩
    rw [List.foldlM_cons, done]
    rfl

/-- Records keep the fields of a message in order. -/
theorem Plays.ordered (good : codec.Coherent set name) {bytes : List UInt8}
    {first second : Message} (plays : Plays set nested codec bytes first second)
    (ordered : first.Ordered) : second.Ordered := by
  obtain ⟨records, -, done⟩ := plays
  refine foldlM_keeps MessageOf.Ordered ?_ ordered done
  intro before record after _ ordered step
  cases planned : codec.reader? record.key.tag with
  | none =>
    rw [applyRecord_eq_addUnknown planned] at step
    cases step
    exact ordered.addUnknown _
  | some plan =>
    obtain ⟨value, merged, -, -, rfl⟩ := (applyRecord_eq_ok_iff good planned).1 step
    exact (MessageCodec.ordered_clearOthers codec plan ordered).set _ _

/-- A whole message is what its bytes lead to, if the limits admit them. -/
theorem decode_eq_ok_iff_plays (coherent : set.Coherent) (found : set.get? name = some codec)
    {bytes : List UInt8} {message : Message} :
    decode set name bytes = .ok message ↔
      bytes.length ≤ set.limits.maxMessageSize ∧
        Plays set (decodeWithin set set.limits.maxDepth) codec bytes (.new name) message := by
  rw [decode_eq_ok_iff, decodeWithin_eq_ok_iff coherent, found]
  simp only [Option.some.injEq, Plays, exists_and_left, exists_eq_left']

/-- A record that was read anywhere plays from its own bytes. -/
theorem Plays.of_record (good : codec.Coherent set name) (anywhere : ReadsAnywhere nested)
    {record : Record} {maxLength place : Nat} {bytes : List UInt8}
    (form : record.Spells maxLength place bytes) (short : bytes.length ≤ set.limits.maxLength)
    {first second : Message} (done : applyRecord set nested codec first record = .ok second) :
    Plays set nested codec bytes first second := by
  rw [← Nat.zero_add place] at form
  obtain ⟨here, near, rfl⟩ := Record.spells_shift_iff.1 form
  refine ⟨[here], .singleton (near.of_min_le (Nat.le_trans (Nat.min_le_right _ _) short)), ?_⟩
  rw [List.foldlM_cons, (applyRecord_shift_iff good anywhere place).1 done]
  rfl

/-- Records that were read anywhere play, one behind another, from their own bytes. -/
theorem Plays.of_records (good : codec.Coherent set name) (anywhere : ReadsAnywhere nested)
    {records : List Record}
    (spelled : ∀ record ∈ records, ∃ maxLength place, record.Spells maxLength place record.raw)
    (short : (records.flatMap (·.raw)).length ≤ set.limits.maxLength) {first last : Message}
    (done : records.foldlM (applyRecord set nested codec) first = .ok last) :
    Plays set nested codec (records.flatMap (·.raw)) first last := by
  induction records generalizing first with
  | nil =>
    cases done
    exact .nil last
  | cons record rest ih =>
    obtain ⟨⟨maxLength, place, form⟩, later⟩ := List.forall_mem_cons.1 spelled
    obtain ⟨second, here, done⟩ := bind_eq_ok_iff.1 done
    rw [List.flatMap_cons] at short ⊢
    rw [List.length_append] at short
    exact .append good anywhere (.of_record good anywhere form (by omega) here)
      (ih later (by omega) done)

end CodecSet

end Protobuf
