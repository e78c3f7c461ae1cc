import Protobuf.Proofs.Codec.Decode

/-! # Inside a message that is read

Reading a message takes its records one after another, and on the way it opens the messages that
stand inside and merges some of them into what it has read before. `Opens` says which messages are
opened and how deep they lie, `Merges` which ones are merged. Main statement: if reading succeeds,
so does reading each message that is opened.

## Implementation notes

The relations say what is done up to the first fault, so they speak of reading that fails as well.
Nothing is asked of the codecs. -/

namespace Protobuf

open Wire

namespace CodecSet

variable {set : CodecSet} {nested : String → Slice → Except CodecError Message}
  {codec : MessageCodec} {name : String} {bytes : List UInt8} {plan : FieldPlan} {record : Record}
  {before message : Message} {levels : Nat} {slice : Slice} {error : CodecError}

/-- Reading a message of a type comes to a record, after all records in front of it were applied.
Messages inside it may go on nesting for some levels. -/
structure Reaches (set : CodecSet) (levels : Nat) (name : String) (slice : Slice)
    (codec : MessageCodec) (before : Message) (record : Record) : Prop where
  found : set.get? name = some codec
  led : ∃ front back broken,
    split set.limits.maxLength (.ofSlice slice) = (front ++ record :: back, broken) ∧
      front.foldlM (applyRecord set (decodeWithin set levels) codec) (.new codec.message) =
        .ok before

/-- Reading a whole message opens a message of a type, so deep inside it: the whole one itself, and
the embedded messages and entries of maps that stand in the records it comes to. -/
inductive Opens (set : CodecSet) (name : String) (bytes : List UInt8) :
    Nat → String → Slice → Prop
  | whole : Opens set name bytes 0 name ⟨0, bytes⟩
  | inside {depth : Nat} {type target : String} {slice inner : Slice} {codec : MessageCodec}
    {plan : FieldPlan} {before : Message} {record : Record}
    (outer : Opens set name bytes depth type slice) (deep : depth ≤ set.limits.maxDepth)
    (reaches : set.Reaches (set.limits.maxDepth - depth) type slice codec before record)
    (planned : codec.reader? record.key.tag = some plan)
    (names : plan.form.target? = some target) (payload : record.value = .payload inner) :
    Opens set name bytes (depth + 1) target inner

/-- Reading a whole message merges an embedded message, once this is read, into the one that its
field holds already. -/
inductive Merges (set : CodecSet) (name : String) (bytes : List UInt8) (held decoded : Message) :
    Prop
  | intro {depth : Nat} {type target : String} {slice inner : Slice} {codec : MessageCodec}
    {plan : FieldPlan} {before : Message} {record : Record}
    (outer : Opens set name bytes depth type slice) (deep : depth ≤ set.limits.maxDepth)
    (reaches : set.Reaches (set.limits.maxDepth - depth) type slice codec before record)
    (planned : codec.reader? record.key.tag = some plan) (form : plan.form = .message target)
    (payload : record.value = .payload inner)
    (done : decodeWithin set (set.limits.maxDepth - depth) target inner = .ok decoded)
    (there : (codec.clearOthers plan before).get? plan.tag = some (.message held))

/-! ## Reading that succeeds -/

/-- A message is read if its buffer ends without a fault and all its records can be applied. -/
theorem decodeWithin_succ_eq_ok_iff :
    decodeWithin set (levels + 1) name slice = .ok message ↔
      ∃ codec records, set.get? name = some codec ∧
        split set.limits.maxLength (.ofSlice slice) = (records, none) ∧
        records.foldlM (applyRecord set (decodeWithin set levels) codec) (.new codec.message) =
          .ok message := by
  rw [decodeWithin, decodeOver_eq_ok_iff]
  simp only [split_eq_none_iff, Cursor.ofSlice, Cursor.offset, Nat.add_zero]

/-- If reading succeeds, each record that it comes to is applied. -/
theorem Reaches.exists_applied (reaches : set.Reaches levels name slice codec before record)
    (done : decodeWithin set (levels + 1) name slice = .ok message) :
    ∃ after, applyRecord set (decodeWithin set levels) codec before record = .ok after := by
  obtain ⟨found, front, back, broken, parts, led⟩ := reaches
  obtain ⟨codec', records, found', parts', folded⟩ := decodeWithin_succ_eq_ok_iff.1 done
  obtain rfl := Option.some.inj (found.symm.trans found')
  obtain ⟨rfl, -⟩ := Prod.mk.inj (parts.symm.trans parts')
  obtain ⟨before', after, led', step, -⟩ := foldlM_append_cons_eq_ok_iff.1 folded
  obtain rfl := Except.ok.inj (led.symm.trans led')
  exact ⟨after, step⟩

/-- Applying a record with a message inside reads this first, and goes on with what it comes to. Only
where the entries of a map have no codec, nothing is read. -/
theorem applyRecord_embedded (planned : codec.reader? record.key.tag = some plan) {target : String}
    (names : plan.form.target? = some target) {inner : Slice}
    (payload : record.value = .payload inner) (before : Message) :
    (∃ next, ∀ nested, applyRecord set nested codec before record = nested target inner >>= next) ∨
      plan.form = .map target ∧ set.get? target = none ∧
        ∀ nested, applyRecord set nested codec before record = .error (.unknownMessage target) := by
  have here : expect codec plan record (record.value.payload?.map .ok) = .ok inner :=
    expect_eq_ok_iff.2 (payload?_map_eq_ok_iff.2 payload)
  simp only [applyRecord, planned, applyField]
  cases form : plan.form with
  | single | repeated | packed =>
    rw [form] at names
    cases names
  | message type | messages type =>
    rw [form] at names
    cases names
    simp only [here, ok_bind]
    exact .inl ⟨_, fun nested => rfl⟩
  | map entry =>
    rw [form] at names
    cases names
    simp only [here, ok_bind]
    cases found : set.get? target with
    | none =>
      refine .inr ⟨trivial, rfl, fun nested => ?_⟩
      simp only [CodecSet.codec, found, error_bind]
    | some entryCodec =>
      simp only [codec_eq_ok found, ok_bind]
      exact .inl ⟨_, fun nested => rfl⟩

/-- A record is applied only after the message that stands in it was read. -/
theorem exists_nested_of_applyRecord {after : Message}
    (step : applyRecord set nested codec before record = .ok after)
    (planned : codec.reader? record.key.tag = some plan) {target : String}
    (names : plan.form.target? = some target) {inner : Slice}
    (payload : record.value = .payload inner) : ∃ decoded, nested target inner = .ok decoded := by
  rcases applyRecord_embedded planned names payload before with ⟨next, reads⟩ | ⟨-, -, missing⟩
  · rw [reads, bind_eq_ok_iff] at step
    obtain ⟨decoded, done, -⟩ := step
    exact ⟨decoded, done⟩
  · rw [missing] at step
    cases step

/-- If reading succeeds, so does reading each message that is opened, and none lies too deep. -/
theorem Opens.exists_decoded {depth : Nat} {type : String}
    (opens : Opens set name bytes depth type slice) (done : decode set name bytes = .ok message) :
    depth ≤ set.limits.maxDepth ∧
      ∃ decoded, decodeWithin set (set.limits.maxDepth - depth + 1) type slice = .ok decoded := by
  induction opens with
  | whole => exact ⟨Nat.zero_le _, message, (decode_eq_ok_iff.1 done).2⟩
  | @inside depth type target slice inner codec plan before record outer deep reaches planned names
      payload ih =>
    obtain ⟨-, decoded, read⟩ := ih
    obtain ⟨after, step⟩ := reaches.exists_applied read
    obtain ⟨nested, inside⟩ := exists_nested_of_applyRecord step planned names payload
    obtain ⟨levels, left⟩ : ∃ levels, set.limits.maxDepth - depth = levels + 1 := by
      cases left : set.limits.maxDepth - depth with
      | zero =>
        rw [left] at inside
        cases inside
      | succ levels => exact ⟨levels, rfl⟩
    have further : set.limits.maxDepth - (depth + 1) + 1 = set.limits.maxDepth - depth := by omega
    exact ⟨by omega, nested, further ▸ inside⟩

/-! ## Reading that fails -/

/-- Reading a message fails because its type has no codec, at a record that cannot be applied, or
because its buffer breaks off behind records that could be. -/
theorem cases_of_decodeWithin_eq_error
    (failed : decodeWithin set (levels + 1) name slice = .error error) :
    (set.get? name = none ∧ error = .unknownMessage name) ∨
      (∃ codec before record, set.Reaches levels name slice codec before record ∧
        applyRecord set (decodeWithin set levels) codec before record = .error error) ∨
      ∃ codec broken, set.get? name = some codec ∧ error = breakError set codec broken := by
  rw [decodeWithin, decodeOver] at failed
  cases found : set.get? name with
  | none =>
    simp only [CodecSet.codec, found, error_bind, Except.error.injEq] at failed
    exact .inl ⟨rfl, failed.symm⟩
  | some codec =>
    rw [codec_eq_ok found, ok_bind] at failed
    cases parts : split set.limits.maxLength (.ofSlice slice) with
    | mk records broken =>
      simp only [parts, bind_eq_error_iff] at failed
      rcases failed with failed | ⟨result, -, ended⟩
      · obtain ⟨front, record, back, before, rfl, led, fails⟩ := foldlM_eq_error_iff.1 failed
        exact .inr (.inl ⟨codec, before, record, ⟨found, front, back, broken, parts, led⟩, fails⟩)
      · cases broken with
        | none => cases ended
        | some broken =>
          cases ended
          exact .inr (.inr ⟨codec, broken, rfl, rfl⟩)

end CodecSet

end Protobuf
