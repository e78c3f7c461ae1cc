import Protobuf.Proofs.Codec.Decode
import Protobuf.Proofs.Codec.Encode
import Protobuf.Proofs.Value.Depth

/-! # More codecs

What some codecs merge, write or read, more codecs merge, write or read in the same way. Reading
goes on with more levels as well, and with any limit on lengths that is not less than the former or
than the input is long. Main statements: `mergeValue_mono`, `writeValue_mono` and
`decodeWithin_mono`.

## Implementation notes

A run that succeeds has found every codec that it asked for, and finds the same ones among more
codecs. So nothing is asked of the messages, which need not conform. -/

namespace Protobuf

open Wire

namespace CodecSet

/-- The codecs of one set are among those of another. -/
def Within (part whole : CodecSet) : Prop :=
  ∀ name codec, part.get? name = some codec → whole.get? name = some codec

variable {part whole : CodecSet} {codec : MessageCodec} {message name : String}

theorem codec_mono (within : part.Within whole) (found : part.codec name = .ok codec) :
    whole.codec name = .ok codec := by
  rw [CodecSet.codec] at found
  split at found
  · rename_i codec' there
    cases found
    exact codec_eq_ok (within name _ there)
  · cases found

theorem closed_mono (within : part.Within whole) {form : FieldForm} (closed : form.Closed part) :
    form.Closed whole :=
  closed.transfer fun type codec _ found => within type codec found

/-- A codec that agrees with some codecs agrees with more codecs. -/
theorem coherent_mono (within : part.Within whole) (good : codec.Coherent part name) :
    codec.Coherent whole name :=
  good.transfer fun plan held => closed_mono within (good.closed plan held)

/-! ## Merging -/

/-- Fields are merged in the same way by more codecs if each of their values is. -/
theorem mergeFields_mono_of {fields : List (Nat × Value)}
    (inside : ∀ field ∈ fields, ∀ held merged, mergeValue part held field.2 = .ok merged →
      mergeValue whole held field.2 = .ok merged)
    {target result : Message} (done : mergeFields part codec target fields = .ok result) :
    mergeFields whole codec target fields = .ok result := by
  induction fields generalizing target with
  | nil => exact done
  | cons field rest ih =>
    obtain ⟨here, later⟩ := List.forall_mem_cons.1 inside
    rw [mergeFields_cons, bind_eq_ok_iff] at done ⊢
    obtain ⟨next, first, after⟩ := done
    exact ⟨next, here _ _ first, ih later after⟩

/-- A message is merged in the same way by more codecs if each value in it is. -/
theorem merge_mono_of (within : part.Within whole) {target source result : Message}
    (inside : ∀ field ∈ source.fields, ∀ held merged, mergeValue part held field.2 = .ok merged →
      mergeValue whole held field.2 = .ok merged)
    (done : merge part target source = .ok result) : merge whole target source = .ok result := by
  rw [merge, bind_eq_ok_iff] at done ⊢
  obtain ⟨codec, found, done⟩ := done
  obtain ⟨merged, folded, done⟩ := bind_eq_ok_iff.1 done
  refine ⟨codec, codec_mono within found, ?_⟩
  rw [mergeFields_mono_of inside folded]
  exact done

/-- A value is merged in the same way by more codecs. -/
theorem mergeValue_mono (within : part.Within whole) {value merged : Value} {held : Option Value}
    (done : mergeValue part held value = .ok merged) :
    mergeValue whole held value = .ok merged := by
  induction value using Value.induct generalizing held merged with
  | message source inside =>
    cases held with
    | none =>
      rw [mergeValue_none] at done ⊢
      exact done
    | some old =>
      cases old with
      | message target =>
        rw [mergeValue_message, map_eq_ok_iff] at done ⊢
        obtain ⟨result, done, same⟩ := done
        exact ⟨result, merge_mono_of within (fun field among _ _ => inside field among) done, same⟩
      | _ => exact done
  | list elements => exact done
  | map entries => exact done
  | atom value atom =>
    rw [mergeValue_atom atom] at done ⊢
    exact done

/-! ## Writing -/

/-- Fields are written in the same way by more codecs if each of their values is. -/
theorem writeFields_mono_of {held? : Nat → Option Value} {groups : List String}
    {plans : List FieldPlan}
    (inside : ∀ plan ∈ plans, ∀ value, held? plan.tag = some value → ∀ bytes,
      writeValue part value message plan = .ok bytes →
        writeValue whole value message plan = .ok bytes) {bytes : List UInt8}
    (done : writeFields message (fun tag => (held? tag).map (draft part)) groups plans =
      .ok bytes) :
    writeFields message (fun tag => (held? tag).map (draft whole)) groups plans = .ok bytes := by
  induction plans generalizing groups bytes with
  | nil => exact done
  | cons plan rest ih =>
    obtain ⟨carried, inside⟩ := List.forall_mem_cons.1 inside
    have later {groups : List String} {bytes : List UInt8} := @ih groups inside bytes
    rw [writeFields] at done ⊢
    cases held : held? plan.tag with
    | none =>
      simp only [held, Option.map_none] at done ⊢
      exact later done
    | some value =>
      -- Whatever the presence, a field that is written goes before the others.
      have both {groups : List String} {bytes : List UInt8}
          (done : (writeValue part value message plan >>= fun here =>
            writeFields message (fun tag => (held? tag).map (draft part)) groups rest >>=
              fun after => .ok (here ++ after)) = .ok bytes) :
          (writeValue whole value message plan >>= fun here =>
            writeFields message (fun tag => (held? tag).map (draft whole)) groups rest >>=
              fun after => .ok (here ++ after)) = .ok bytes := by
        obtain ⟨here, first, done⟩ := bind_eq_ok_iff.1 done
        obtain ⟨after, second, done⟩ := bind_eq_ok_iff.1 done
        rw [carried value held here first, ok_bind, later second, ok_bind, done]
      simp only [held, Option.map_some] at done ⊢
      cases presence : plan.presence with
      | implicit =>
        simp only [presence] at done ⊢
        by_cases zero : value.isZero
        · rw [if_pos (by exact zero)] at done ⊢
          exact later done
        · rw [if_neg (by exact zero)] at done ⊢
          exact both done
      | oneof group =>
        simp only [presence] at done ⊢
        by_cases used : groups.contains group
        · rw [if_pos used] at done
          cases done
        · rw [if_neg used] at done ⊢
          exact both done
      | explicit =>
        simp only [presence] at done ⊢
        exact both done
      | repeated =>
        simp only [presence] at done ⊢
        exact both done

/-- A message is written in the same way by more codecs if each value in it is. -/
theorem encode_mono_of (within : part.Within whole) {source : Message}
    (inside : ∀ field ∈ source.fields, ∀ message plan bytes,
      writeValue part field.2 message plan = .ok bytes →
      writeValue whole field.2 message plan = .ok bytes)
    {bytes : List UInt8} (done : encode part source = .ok bytes) :
    encode whole source = .ok bytes := by
  obtain ⟨codec, found⟩ := exists_codec_of_encode done
  have declared := declared_of_encode found done
  rw [encode_eq found declared, map_eq_ok_iff] at done
  obtain ⟨known, written, same⟩ := done
  rw [encode_eq (within _ _ found) declared, map_eq_ok_iff]
  refine ⟨known, writeFields_mono_of (fun plan _ value held => ?_) written, same⟩
  exact inside _ (Keyed.mem_of_get?_eq_some held) _ _

/-- Elements are written in the same way by more codecs if each message among them is. -/
theorem writeElements_mono_of {elements : List Value} {plan : FieldPlan} {type : String}
    (inside : ∀ source, .message source ∈ elements → ∀ bytes, encode part source = .ok bytes →
      encode whole source = .ok bytes)
    {bytes : List UInt8} (done : writeElements part elements message plan type = .ok bytes) :
    writeElements whole elements message plan type = .ok bytes := by
  induction elements generalizing bytes with
  | nil => exact done
  | cons element rest ih =>
    cases element with
    | message source =>
      by_cases same : source.typeName = type
      · subst same
        rw [writeElements_cons] at done ⊢
        obtain ⟨nested, here, done⟩ := bind_eq_ok_iff.1 done
        obtain ⟨after, written, done⟩ := bind_eq_ok_iff.1 done
        have later := ih (fun source held => inside source (List.mem_cons_of_mem _ held)) written
        rw [inside source List.mem_cons_self nested here, ok_bind, later, ok_bind, done]
      · simp [writeElements, same, mismatch] at done
    | _ => simp [writeElements, mismatch] at done

/-- Entries are written in the same way by more codecs if their keys and values are. -/
theorem writeEntries_mono_of {entries : List (Value × Value)} {plan : FieldPlan}
    (inside : ∀ entry ∈ entries, ∀ value, value = entry.1 ∨ value = entry.2 →
      ∀ message plan bytes, writeValue part value message plan = .ok bytes →
        writeValue whole value message plan = .ok bytes)
    {bytes : List UInt8} (done : writeEntries codec plan (entryDrafts part entries) = .ok bytes) :
    writeEntries codec plan (entryDrafts whole entries) = .ok bytes := by
  induction entries generalizing bytes with
  | nil => exact done
  | cons entry rest ih =>
    obtain ⟨here, later⟩ := List.forall_mem_cons.1 inside
    obtain ⟨key, value⟩ := entry
    have halves (set : CodecSet) :
        (fun tag => if tag = 1 then some (⟨key.isZero, writeValue set key⟩ : Draft)
          else if tag = 2 then some ⟨value.isZero, writeValue set value⟩ else none) =
        fun tag => ((Value.entryOf "" (key, value)).get? tag).map (draft set) := by
      funext tag
      rw [get?_entryOf]
      split
      · rfl
      · split <;> rfl
    simp only [entryDrafts, writeEntries, halves] at done ⊢
    obtain ⟨nested, written, done⟩ := bind_eq_ok_iff.1 done
    obtain ⟨after, more, done⟩ := bind_eq_ok_iff.1 done
    rw [writeFields_mono_of ?_ written, ok_bind, ih later more, ok_bind, done]
    intro plan _ half held
    have among := Keyed.mem_of_get?_eq_some held
    simp only [Value.entryOf, List.mem_cons, List.not_mem_nil, or_false, Prod.mk.injEq] at among
    exact here half (among.imp And.right And.right) _ _

/-- A value is written in the same way by more codecs, in a field and, if it is a message, by
itself. -/
theorem writes_mono (within : part.Within whole) (value : Value) :
    (∀ message plan bytes, writeValue part value message plan = .ok bytes →
      writeValue whole value message plan = .ok bytes) ∧
    ∀ source, value = .message source → ∀ bytes, encode part source = .ok bytes →
      encode whole source = .ok bytes := by
  induction value using Value.induct with
  | message source inside =>
    have itself : ∀ bytes, encode part source = .ok bytes → encode whole source = .ok bytes :=
      fun bytes => encode_mono_of within fun field held => (inside field held).1
    refine ⟨fun message plan bytes done => ?_, fun source' same => Value.message.inj same ▸ itself⟩
    cases form : plan.form with
    | message type =>
      by_cases same : source.typeName = type
      · subst same
        rw [writeValue_message form, map_eq_ok_iff] at done ⊢
        obtain ⟨nested, written, same⟩ := done
        exact ⟨nested, itself nested written, same⟩
      · obtain ⟨typeName, fields, unknown⟩ := source
        simp [writeValue, form, same, mismatch] at done
    | _ =>
      obtain ⟨typeName, fields, unknown⟩ := source
      simp [writeValue, form, mismatch] at done
  | list elements inside =>
    refine ⟨fun message plan bytes done => ?_, fun source same => by cases same⟩
    cases form : plan.form with
    | messages type =>
      simp only [writeValue, form] at done ⊢
      exact writeElements_mono_of (fun source held => (inside _ held).2 source rfl) done
    | _ =>
      simp only [writeValue, form] at done ⊢
      exact done
  | map entries inside =>
    refine ⟨fun message plan bytes done => ?_, fun source same => by cases same⟩
    cases form : plan.form with
    | map entry =>
      simp only [writeValue, form] at done ⊢
      obtain ⟨codec, found, done⟩ := bind_eq_ok_iff.1 done
      rw [codec_mono within found, ok_bind]
      refine writeEntries_mono_of (fun entry held value half => ?_) done
      rcases half with rfl | rfl
      · exact (inside entry held).1.1
      · exact (inside entry held).2.1
    | _ =>
      simp only [writeValue, form] at done ⊢
      exact done
  | atom value atom =>
    constructor
    · intro message plan bytes done
      cases value <;> first | exact atom.elim | (simp only [writeValue] at done ⊢; exact done)
    · rintro source rfl
      exact atom.elim

/-- A value is written in the same way by more codecs. -/
theorem writeValue_mono (within : part.Within whole) {value : Value} {plan : FieldPlan}
    {bytes : List UInt8} (done : writeValue part value message plan = .ok bytes) :
    writeValue whole value message plan = .ok bytes :=
  (writes_mono within value).1 message plan bytes done

/-! ## Reading -/

section Reading

variable {nested other : String → Slice → Except CodecError Message} {plan : FieldPlan}
  {record : Record}

/-- A value stands for the same with more codecs, if its payload is read as the same messages. -/
theorem Reads.mono (within : part.Within whole) {form : FieldForm} {raw : RawValue} {value : Value}
    (inside : ∀ slice, raw = .payload slice → ∀ type decoded, nested type slice = .ok decoded →
      other type slice = .ok decoded)
    (reads : Reads part nested form raw value) : Reads whole other form raw value := by
  cases reads with
  | single read => exact .single read
  | repeated read => exact .repeated read
  | packed read => exact .packed read
  | message done => exact .message (inside _ rfl _ _ done)
  | messages done => exact .messages (inside _ rfl _ _ done)
  | map found done => exact .map (within _ _ found) (inside _ rfl _ _ done)

/-- A record is applied in the same way with more codecs, if its payload is read as the same
messages. -/
theorem applyRecord_mono (within : part.Within whole) (good : codec.Coherent part name)
    (inside : ∀ slice, record.value = .payload slice → ∀ type decoded,
      nested type slice = .ok decoded → other type slice = .ok decoded)
    {before after : Message} (done : applyRecord part nested codec before record = .ok after) :
    applyRecord whole other codec before record = .ok after := by
  unfold applyRecord at done ⊢
  cases planned : codec.reader? record.key.tag with
  | none => simpa only [planned] using done
  | some plan =>
    simp only [planned] at done ⊢
    have among := MessageCodec.reader?_mem planned
    rw [applyField_eq good among, bind_eq_ok_iff] at done
    rw [applyField_eq (coherent_mono within good) among, bind_eq_ok_iff]
    obtain ⟨value, stands, done⟩ := done
    obtain ⟨merged, together, done⟩ := bind_eq_ok_iff.1 done
    have closed := good.closed plan among
    have reads := ((fieldValue_eq_ok_iff closed).1 stands).mono within inside
    refine ⟨value, (fieldValue_eq_ok_iff (closed_mono within closed)).2 reads, ?_⟩
    rw [mergeValue_mono within together, ok_bind, done]

/-- A message is read in the same way by more codecs with more levels, if the limit on lengths is
not less than the former or than the input is long. -/
theorem decodeWithin_mono (within : part.Within whole) (coherent : part.Coherent)
    {levels more start : Nat} (le : levels ≤ more) {bytes : List UInt8}
    (short : min part.limits.maxLength bytes.length ≤ whole.limits.maxLength) {decoded : Message}
    (done : decodeWithin part levels name ⟨start, bytes⟩ = .ok decoded) :
    decodeWithin whole more name ⟨start, bytes⟩ = .ok decoded := by
  induction levels generalizing more name start bytes decoded with
  | zero => cases done
  | succ levels ih =>
    obtain ⟨more, rfl⟩ : ∃ fewer, more = fewer + 1 := ⟨more - 1, by omega⟩
    rw [decodeWithin, decodeOver_eq_ok_iff] at done ⊢
    obtain ⟨codec, records, found, row, folded⟩ := done
    refine ⟨codec, records, within _ _ found, row.of_min_le short, ?_⟩
    refine foldlM_mono (fun record held before after step => ?_) folded
    refine applyRecord_mono within (coherent _ _ found) (fun slice payload type decoded read => ?_)
      step
    obtain ⟨start, bytes'⟩ := slice
    obtain ⟨place, part, form⟩ := row.spells_of_mem held
    have inner := form.payload_le payload
    have outer := row.length_raw_le held
    rw [form.raw] at outer
    exact ih (Nat.le_of_succ_le_succ le) (by simp only at inner outer; omega) read

end Reading

end CodecSet

end Protobuf
