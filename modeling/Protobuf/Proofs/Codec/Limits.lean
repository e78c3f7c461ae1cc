import Protobuf.Proofs.Codec.Nesting
import Protobuf.Proofs.Schema.Accepted
import Protobuf.Proofs.Wire.Limit

/-! # Reading under limits

Narrower limits only turn what is read, or why it is not, into a limit that is exceeded. Main
statement: `decode_narrow`.

## Implementation notes

Two runs over the same bytes are kept side by side. `Narrowed` relates what they come to, and what
runs put behind one another come to is related if that of each is. Nothing is asked of the
codecs. -/

namespace Protobuf

open Wire

/-- None of some limits is wider than that of others. -/
structure Limits.Within (narrow wide : Limits) : Prop where
  size : narrow.maxMessageSize ≤ wide.maxMessageSize
  length : narrow.maxLength ≤ wide.maxLength
  depth : narrow.maxDepth ≤ wide.maxDepth

/-- A limit was exceeded. -/
inductive CodecError.IsLimit : CodecError → Prop
  | malformed {error : Error} (limit : error.IsLimit) : IsLimit (.malformed error)

/-- A run comes to the same as another one, or exceeds a limit. -/
inductive Narrowed {α : Type} : Except CodecError α → Except CodecError α → Prop
  | same (result : Except CodecError α) : Narrowed result result
  | exceeded {error : CodecError} (limit : error.IsLimit) (result : Except CodecError α) :
    Narrowed (.error error) result

namespace Narrowed

variable {α β σ : Type}

/-- Runs that go on from what is related come to what is related. -/
theorem bind {first first' : Except CodecError α} {next next' : α → Except CodecError β}
    (narrowed : Narrowed first first') (after : ∀ a, Narrowed (next a) (next' a)) :
    Narrowed (first >>= next) (first' >>= next') := by
  cases narrowed with
  | same =>
    cases first with
    | error error => exact .same _
    | ok a => exact after a
  | exceeded limit => exact .exceeded limit _

theorem foldlM {step step' : σ → α → Except CodecError σ}
    (each : ∀ state item, Narrowed (step state item) (step' state item)) (items : List α)
    (start : σ) : Narrowed (items.foldlM step start) (items.foldlM step' start) := by
  induction items generalizing start with
  | nil => exact .same _
  | cons item rest ih =>
    rw [List.foldlM_cons, List.foldlM_cons]
    exact (each start item).bind ih

end Narrowed

namespace CodecSet

variable {set : CodecSet} {nested nested' : String → Slice → Except CodecError Message}
  {codec : MessageCodec} {plan : FieldPlan} {record : Record} {narrow wide limits : Limits}

/-! ## Merging -/

/-- Limits do not matter for merging fields if they do not for merging each value. -/
theorem mergeFields_withLimits_of {fields : List (Nat × Value)}
    (inside : ∀ field ∈ fields, ∀ held,
      mergeValue (set.withLimits limits) held field.2 = mergeValue set held field.2)
    (target : Message) :
    mergeFields (set.withLimits limits) codec target fields =
      mergeFields set codec target fields := by
  induction fields generalizing target with
  | nil => rfl
  | cons field rest ih =>
    obtain ⟨here, later⟩ := List.forall_mem_cons.1 inside
    rw [mergeFields_cons, mergeFields_cons, here]
    exact congrArg _ (funext fun merged => ih later _)

theorem merge_withLimits_of {source : Message}
    (inside : ∀ field ∈ source.fields, ∀ held,
      mergeValue (set.withLimits limits) held field.2 = mergeValue set held field.2)
    (target : Message) : merge (set.withLimits limits) target source = merge set target source := by
  simp only [merge, mergeFields_withLimits_of inside]
  rfl

theorem mergeValue_withLimits (value : Value) (held : Option Value) :
    mergeValue (set.withLimits limits) held value = mergeValue set held value := by
  induction value using Value.induct generalizing held with
  | message source inside =>
    cases held with
    | none => rw [mergeValue_none, mergeValue_none]
    | some old =>
      cases old with
      | message target =>
        rw [mergeValue_message, mergeValue_message,
          merge_withLimits_of fun field among held => inside field among held]
      | _ => rfl
  | list elements => rfl
  | map entries => rfl
  | atom value atom => rw [mergeValue_atom atom, mergeValue_atom atom]

/-- Limits do not matter for merging. -/
@[simp] theorem merge_withLimits (target source : Message) :
    merge (set.withLimits limits) target source = merge set target source :=
  merge_withLimits_of (fun field _ => mergeValue_withLimits field.2) target

/-! ## Records -/

/-- Limits do not matter for applying a record, but for the messages inside it. -/
theorem applyRecord_withLimits (before : Message) :
    applyRecord (set.withLimits limits) nested codec before record =
      applyRecord set nested codec before record := by
  simp only [applyRecord, applyField, merge_withLimits]
  rfl

/-- A record is applied alike if messages inside it are read alike, or exceeds a limit. -/
theorem narrowed_applyRecord
    (inside : ∀ type slice, Narrowed (nested type slice) (nested' type slice)) (before : Message) :
    Narrowed (applyRecord set nested codec before record)
      (applyRecord set nested' codec before record) := by
  unfold applyRecord
  cases codec.reader? record.key.tag with
  | none => exact .same _
  | some plan =>
    simp only [applyField]
    cases plan.form with
    | single | repeated | packed => exact .same _
    | message type | messages type =>
      refine .bind (.same _) fun slice => ?_
      exact .bind (inside type slice) fun decoded => .same _
    | map entry =>
      refine .bind (.same _) fun slice => .bind (.same _) fun entryCodec => ?_
      exact .bind (inside entry slice) fun decoded => .same _

/-! ## Records that are cut off -/

/-- The fault that a record with a payload has by its key already: its field is laid out otherwise,
or the entries of its map have no codec. -/
def keyFault? (set : CodecSet) (codec : MessageCodec) (offset : Nat) (key : Key) :
    Option CodecError :=
  match codec.reader? key.tag with
  | none => none
  | some plan =>
    if plan.accepts key.wireType then
      match plan.form with
      | .map entry => if (set.get? entry).isSome then none else some (.unknownMessage entry)
      | _ => none
    else some (misplaced codec plan offset key.wireType)

/-- A buffer that breaks off in a value ends with the fault of the key, if there is one. -/
theorem breakError_value {offset : Nat} {key : Key} {error : Error} :
    breakError set codec (.value offset key error) =
      (keyFault? set codec offset key).getD (.malformed error) := by
  cases planned : codec.reader? key.tag with
  | none => simp only [breakError, keyFault?, planned, Option.getD_none]
  | some plan =>
    simp only [breakError, keyFault?, planned]
    split
    · cases plan.form with
      | map entry =>
        simp only
        split <;> rfl
      | _ => rfl
    · rfl

/-- Only a field of a single number accepts no record with a payload. -/
theorem single_of_not_accepts (unaccepted : ¬plan.accepts .lengthDelimited) :
    ∃ kind, plan.form = .single (.numeric kind) := by
  unfold FieldPlan.accepts at unaccepted
  cases form : plan.form with
  | single scalar =>
    cases scalar with
    | numeric kind => exact ⟨kind, rfl⟩
    | string | bytes => simp [form, FieldForm.singleWireType, Scalar.wireType] at unaccepted
  | repeated scalar =>
    cases scalar with
    | numeric kind => simp [form, FieldForm.acceptsPacked, Scalar.isPackable] at unaccepted
    | string | bytes => simp [form, FieldForm.singleWireType, Scalar.wireType] at unaccepted
  | packed => simp [form, FieldForm.acceptsPacked] at unaccepted
  | message | messages | map => simp [form, FieldForm.singleWireType] at unaccepted

/-- A record with the fault of its key is not applied. -/
theorem applyRecord_of_keyFault? {offset : Nat} {key : Key} {slice : Slice} {raw : List UInt8}
    {error : CodecError} (layout : key.wireType = .lengthDelimited)
    (fault : keyFault? set codec offset key = some error) (before : Message) :
    applyRecord set nested codec before ⟨offset, key, .payload slice, raw⟩ = .error error := by
  unfold keyFault? at fault
  unfold applyRecord
  cases planned : codec.reader? key.tag with
  | none => simp only [planned, reduceCtorEq] at fault
  | some plan =>
    simp only [planned] at fault
    split at fault
    · split at fault
      · rename_i entry form
        split at fault
        · cases fault
        · rename_i missing
          cases fault
          have none : set.codec entry = .error (.unknownMessage entry) := by
            simp only [CodecSet.codec, Option.not_isSome_iff_eq_none.1 missing]
          simp only [applyField, form, RawValue.payload?, Option.map_some, expect, ok_bind, none,
            error_bind]
      · cases fault
    · rename_i unaccepted
      cases fault
      obtain ⟨kind, form⟩ := single_of_not_accepts (layout ▸ unaccepted)
      simp only [applyField, form, Scalar.read?, RawValue.word?, Option.map_none, expect,
        error_bind]

/-- Where a record is cut off by a limit, this is exceeded, unless the key is at fault: then any run
that minds the key ends alike. -/
theorem narrowed_breakError {α : Type} {offset : Nat} {key : Key} {error : Error}
    (limit : error.IsLimit) {result : Except CodecError α}
    (alike : ∀ fault, keyFault? set codec offset key = some fault → result = .error fault) :
    Narrowed (.error (breakError set codec (.value offset key error))) result := by
  rw [breakError_value]
  cases fault : keyFault? set codec offset key with
  | none => exact .exceeded (.malformed limit) _
  | some error =>
    rw [alike error fault]
    exact .same _

/-! ## Messages -/

/-- A message is read alike under narrower limits if messages inside it are, or exceeds one. -/
theorem narrowed_decodeOver (within : narrow.Within wide)
    (inside : ∀ type slice, Narrowed (nested type slice) (nested' type slice)) (name : String)
    (slice : Slice) :
    Narrowed (decodeOver (set.withLimits narrow) nested name slice)
      (decodeOver (set.withLimits wide) nested' name slice) := by
  have each (codec : MessageCodec) (before : Message) (record : Record) :
      Narrowed (applyRecord (set.withLimits narrow) nested codec before record)
        (applyRecord (set.withLimits wide) nested' codec before record) := by
    rw [applyRecord_withLimits, applyRecord_withLimits]
    exact narrowed_applyRecord inside before
  refine .bind (.same (set.codec name)) fun codec => ?_
  -- The runs go side by side up to where the narrow one is cut off. What the wide one does from
  -- there on matters only as far as the key of that record is at fault.
  have cut := cut_split within.length (.ofSlice slice)
  simp only [limits_withLimits]
  generalize split narrow.maxLength (.ofSlice slice) = parts at cut
  generalize split wide.maxLength (.ofSlice slice) = parts' at cut
  cases cut with
  | same =>
    obtain ⟨records, broken⟩ := parts
    exact .bind (.foldlM (each codec) records _) fun message => .same _
  | @fault front offset key error other layout limit =>
    refine .bind (.foldlM (each codec) front _) fun message => ?_
    refine narrowed_breakError limit fun fault here => ?_
    have there : keyFault? (set.withLimits wide) codec offset key = some fault := here
    simp only [breakError_value, there, Option.getD_some]
    rfl
  | @record front back offset key slice raw broken error layout limit =>
    simp only [List.foldlM_append, bind_assoc, List.foldlM_cons]
    refine .bind (.foldlM (each codec) front _) fun message => ?_
    refine narrowed_breakError limit fun fault here => ?_
    have there : keyFault? (set.withLimits wide) codec offset key = some fault := here
    rw [applyRecord_of_keyFault? layout there, error_bind]

/-- A message is read alike under narrower limits and with fewer levels, or exceeds a limit. -/
theorem narrowed_decodeWithin (within : narrow.Within wide) {levels more : Nat}
    (le : levels ≤ more) (name : String) (slice : Slice) :
    Narrowed (decodeWithin (set.withLimits narrow) levels name slice)
      (decodeWithin (set.withLimits wide) more name slice) := by
  induction levels generalizing more name slice with
  | zero => exact .exceeded (.malformed (.intro ..)) _
  | succ levels ih =>
    obtain ⟨more, rfl⟩ := Nat.exists_eq_add_of_lt le
    exact narrowed_decodeOver within (fun type slice => ih (by omega) type slice) name slice

/-- A whole message is read alike under narrower limits, or exceeds one. -/
theorem narrowed_decode (set : CodecSet) (within : narrow.Within wide) (name : String)
    (bytes : List UInt8) :
    Narrowed ((set.withLimits narrow).decode name bytes)
      ((set.withLimits wide).decode name bytes) := by
  by_cases tooLong : narrow.maxMessageSize < bytes.length
  · have failed : (set.withLimits narrow).decode name bytes = .error _ := if_pos tooLong
    rw [failed]
    exact .exceeded (.malformed (.intro ..)) _
  · have fits : ¬wide.maxMessageSize < bytes.length :=
      fun above => tooLong (Nat.lt_of_le_of_lt within.size above)
    have read : (set.withLimits narrow).decode name bytes =
        decodeWithin (set.withLimits narrow) (narrow.maxDepth + 1) name ⟨0, bytes⟩ := if_neg tooLong
    have read' : (set.withLimits wide).decode name bytes =
        decodeWithin (set.withLimits wide) (wide.maxDepth + 1) name ⟨0, bytes⟩ := if_neg fits
    rw [read, read']
    exact narrowed_decodeWithin within (Nat.succ_le_succ within.depth) name _

/-- The records of a message that was read have no payloads longer than the limit, and each of
these stands behind its length. -/
theorem exists_framed_of_decodeWithin {levels : Nat} {name : String} {slice : Slice}
    {message : Message} (done : decodeWithin set (levels + 1) name slice = .ok message) :
    ∃ records, split set.limits.maxLength (.ofSlice slice) = (records, none) ∧
      ∀ record ∈ records, ∀ inner, record.value = .payload inner → ∃ key framed,
        record.raw = key ++ framed ∧ record.key.Spells key ∧
          Payload set.limits.maxLength framed inner.bytes := by
  obtain ⟨codec, records, -, parts, -⟩ := decodeWithin_succ_eq_ok_iff.1 done
  refine ⟨records, parts, fun record held inner payload => ?_⟩
  obtain ⟨start, part, form⟩ := (split_eq_none_iff.1 parts).spells_of_mem held
  rw [form.raw]
  exact form.framed payload

/-- Of two limits, the narrower one changes nothing but that it may be exceeded. What is read under
it is read under the wider one; any other error under it is the error under the wider one; and an
error under the wider one is an error under it, if it is not exceeded before. While a message is
read under it, no message that is opened lies too deep, and no payload in one is too long. -/
theorem decode_narrow (set : CodecSet) (within : narrow.Within wide) (name : String)
    (bytes : List UInt8) :
    (∀ message, (set.withLimits narrow).decode name bytes = .ok message →
      (set.withLimits wide).decode name bytes = .ok message) ∧
    (∀ error, (set.withLimits narrow).decode name bytes = .error error → ¬error.IsLimit →
      (set.withLimits wide).decode name bytes = .error error) ∧
    (∀ error, (set.withLimits wide).decode name bytes = .error error →
      (set.withLimits narrow).decode name bytes = .error error ∨
        ∃ limit, limit.IsLimit ∧ (set.withLimits narrow).decode name bytes = .error limit) ∧
    ∀ message, (set.withLimits narrow).decode name bytes = .ok message →
      ∀ depth type slice, Opens (set.withLimits narrow) name bytes depth type slice →
        depth ≤ narrow.maxDepth ∧
        ∃ records, split narrow.maxLength (.ofSlice slice) = (records, none) ∧
          ∀ record ∈ records, ∀ inner, record.value = .payload inner → ∃ key framed,
            record.raw = key ++ framed ∧ record.key.Spells key ∧
              Payload narrow.maxLength framed inner.bytes := by
  have narrowed := narrowed_decode set within name bytes
  generalize (set.withLimits wide).decode name bytes = result at narrowed ⊢
  refine ⟨fun message done => ?_, fun error failed other => ?_, fun error failed => ?_,
    fun message done depth type slice opens => ?_⟩
  · rw [done] at narrowed
    cases narrowed with
    | same => rfl
  · rw [failed] at narrowed
    cases narrowed with
    | same => rfl
    | exceeded limit => exact absurd limit other
  · subst failed
    generalize (set.withLimits narrow).decode name bytes = result at narrowed ⊢
    cases narrowed with
    | same => exact .inl rfl
    | exceeded limit => exact .inr ⟨_, limit, rfl⟩
  · obtain ⟨deep, decoded, read⟩ := opens.exists_decoded done
    exact ⟨deep, exists_framed_of_decodeWithin read⟩

/-- What a tight limit admits is read under the usual one, and bytes that end within a child are at
fault under both. -/
theorem decode_narrow_tree :
    ((ofSchema .tree).withLimits {}).decode "Node" [18, 3, 10, 1, 97] =
        .ok ⟨"Node", [(2, .map [(.string "a", .message (.new "Node"))])], []⟩ ∧
      ((ofSchema .tree).withLimits {}).decode "Node" [18, 3, 10] =
        .error (.malformed (.truncated 2 3 1)) := by
  have within : Limits.Within ⟨5, 3, 1⟩ {} := ⟨by decide, by decide, by decide⟩
  obtain ⟨reads, -⟩ := decode_narrow (ofSchema .tree) within "Node" [18, 3, 10, 1, 97]
  obtain ⟨-, fails, -⟩ := decode_narrow (ofSchema .tree) within "Node" [18, 3, 10]
  refine ⟨reads _ (by with_unfolding_all rfl), fails _ (by with_unfolding_all rfl) ?_⟩
  rintro ⟨⟨⟩⟩

end CodecSet

end Protobuf
