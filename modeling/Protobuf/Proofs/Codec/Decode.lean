import Protobuf.Proofs.Codec.Reading

/-! # Reading messages

When a message is read, and that the outcome conforms. Reading succeeds exactly if the buffer is a
row of records that can be applied one after another, and it comes to the same wherever the buffer
stands in the outermost input.

## Implementation notes

Both facts go by induction on the levels that are left, since embedded messages are read by the
same function with a level less. -/

namespace Protobuf

open Wire

namespace CodecSet

variable {set : CodecSet} {nested : String → Slice → Except CodecError Message}
  {codec : MessageCodec} {name : String} {message : Message}

/-- A message is read from a buffer exactly if this is a row of records that lead to it. -/
theorem decodeOver_eq_ok_iff {slice : Slice} :
    decodeOver set nested name slice = .ok message ↔
      ∃ codec records, set.get? name = some codec ∧
        Record.Row set.limits.maxLength slice.offset slice.bytes records ∧
        records.foldlM (applyRecord set nested codec) (.new codec.message) = .ok message := by
  constructor
  · intro done
    cases found : set.get? name with
    | none => simp [decodeOver, CodecSet.codec, found] at done
    | some codec =>
      rw [decodeOver, codec_eq_ok found, ok_bind] at done
      cases parts : split set.limits.maxLength (.ofSlice slice) with
      | mk records broken =>
        simp only [parts, bind_eq_ok_iff] at done
        obtain ⟨result, folded, ended⟩ := done
        cases broken with
        | some broken => cases ended
        | none =>
          cases ended
          exact ⟨codec, records, rfl, split_eq_none_iff.1 parts, folded⟩
  · rintro ⟨codec, records, found, row, folded⟩
    have parts : split set.limits.maxLength (.ofSlice slice) = (records, none) :=
      split_eq_none_iff.2 row
    rw [decodeOver, codec_eq_ok found, ok_bind, parts]
    simp only [folded, ok_bind, pure_eq_ok]

/-- What a row of records leads to conforms. -/
theorem conforms_foldlM (coherent : set.Coherent) (found : set.get? name = some codec)
    (conforming : ReadsConforming set nested) {maxLength place : Nat} {bytes : List UInt8}
    {records : List Record} (row : Record.Row maxLength place bytes records) {start : Message}
    (named : start.typeName = name) (conforms : ConformsTo set codec start)
    (done : records.foldlM (applyRecord set nested codec) start = .ok message) :
    message.typeName = name ∧ ConformsTo set codec message := by
  refine foldlM_keeps (fun message => message.typeName = name ∧ ConformsTo set codec message) ?_
    ⟨named, conforms⟩ done
  rintro before record after held ⟨named, conforms⟩ step
  have found' : set.get? before.typeName = some codec := named ▸ found
  rw [applyRecord_eq (coherent name codec found) found', bind_eq_ok_iff] at step
  obtain ⟨single, stands, merged⟩ := step
  obtain ⟨start, part, form⟩ := row.spells_of_mem held
  obtain ⟨-, conformsSingle⟩ := conforms_recordMessage coherent found conforming form stands
  obtain ⟨result, done, absorbs, conformsResult⟩ :=
    merge_absorbs coherent found' conforms conformsSingle
  obtain rfl := Except.ok.inj (done.symm.trans merged)
  exact ⟨absorbs.typeName.trans named, conformsResult⟩

/-- What a row of records leads to knows what was known before and, in order, every record of a tag
that the type does not have. -/
theorem unknown_foldlM (good : codec.Coherent set name) {records : List Record} {start : Message}
    (done : records.foldlM (applyRecord set nested codec) start = .ok message) :
    message.unknown = start.unknown ++
      (records.filter fun record => (codec.reader? record.key.tag).isNone).map (·.keep) := by
  induction records generalizing start with
  | nil =>
    cases done
    simp
  | cons record rest ih =>
    obtain ⟨next, first, done⟩ := bind_eq_ok_iff.1 done
    rw [ih done]
    cases planned : codec.reader? record.key.tag with
    | none =>
      rw [applyRecord_eq_addUnknown planned, Except.ok.injEq] at first
      simp [← first, planned]
    | some plan =>
      obtain ⟨value, merged, -, -, rfl⟩ := (applyRecord_eq_ok_iff good planned).1 first
      simp [planned]

/-- Other steps follow the records of a row, if they can follow each of them from a message that
conforms. -/
theorem foldlM_follows {σ : Type} (coherent : set.Coherent) (found : set.get? name = some codec)
    (conforming : ReadsConforming set nested) {maxLength place : Nat} {bytes : List UInt8}
    {records : List Record} (row : Record.Row maxLength place bytes records)
    {follows : Message → σ → Prop} {other : σ → Record → Except CodecError σ}
    (step : ∀ record ∈ records, ∀ before after state, before.typeName = name →
      ConformsTo set codec before → applyRecord set nested codec before record = .ok after →
      follows before state → ∃ next, other state record = .ok next ∧ follows after next)
    {start : Message} {state : σ} (named : start.typeName = name)
    (conforms : ConformsTo set codec start) (begins : follows start state)
    (done : records.foldlM (applyRecord set nested codec) start = .ok message) :
    ∃ final, records.foldlM other state = .ok final ∧ follows message final := by
  have spelled := fun record (held : record ∈ records) => row.spells_of_mem held
  clear row
  induction records generalizing start state with
  | nil =>
    cases done
    exact ⟨state, rfl, begins⟩
  | cons record rest ih =>
    obtain ⟨here, later⟩ := List.forall_mem_cons.1 step
    obtain ⟨⟨place, part, form⟩, spelledRest⟩ := List.forall_mem_cons.1 spelled
    obtain ⟨after, first, done⟩ := bind_eq_ok_iff.1 done
    obtain ⟨next, followed, follows⟩ := here start after state named conforms first begins
    have alone : [record].foldlM (applyRecord set nested codec) start = .ok after := by
      rw [List.foldlM_cons, first]
      rfl
    obtain ⟨namedAfter, conformsAfter⟩ :=
      conforms_foldlM coherent found conforming (.singleton form) named conforms alone
    obtain ⟨final, ran, followsFinal⟩ := ih later namedAfter conformsAfter follows done spelledRest
    exact ⟨final, by rw [List.foldlM_cons, followed, ok_bind, ran], followsFinal⟩

/-- A row of records can be applied to a conforming message exactly if each record stands for a
message: what was read before does not matter. -/
theorem foldlM_isOk_iff (coherent : set.Coherent) (found : set.get? name = some codec)
    (conforming : ReadsConforming set nested) {maxLength place : Nat} {bytes : List UInt8}
    {records : List Record} (row : Record.Row maxLength place bytes records) {start : Message}
    (named : start.typeName = name) (conforms : ConformsTo set codec start) :
    (∃ message, records.foldlM (applyRecord set nested codec) start = .ok message) ↔
      ∀ record ∈ records, ∃ message, recordMessage set nested codec record = .ok message := by
  have spelled := fun record (held : record ∈ records) => row.spells_of_mem held
  clear row
  induction records generalizing start with
  | nil => exact ⟨fun _ record held => absurd held List.not_mem_nil, fun _ => ⟨start, rfl⟩⟩
  | cons record rest ih =>
    obtain ⟨place, part, form⟩ := spelled record List.mem_cons_self
    have found' : set.get? start.typeName = some codec := named ▸ found
    rw [List.forall_mem_cons, List.foldlM_cons, applyRecord_eq (coherent name codec found) found']
    cases stands : recordMessage set nested codec record with
    | error error => simp
    | ok single =>
      obtain ⟨-, conformsSingle⟩ := conforms_recordMessage coherent found conforming form stands
      obtain ⟨next, done, absorbs, conformsNext⟩ :=
        merge_absorbs coherent found' conforms conformsSingle
      have later := ih (absorbs.typeName.trans named) conformsNext
        fun record held => spelled record (List.mem_cons_of_mem _ held)
      rw [ok_bind, done, ok_bind]
      exact later.trans (by simp)

/-- Every message that is read is of its type and conforms. -/
theorem readsConforming_decodeWithin (coherent : set.Coherent) (levels : Nat) :
    ReadsConforming set (decodeWithin set levels) := by
  induction levels with
  | zero => exact fun type slice decoded done => by cases done
  | succ levels ih =>
    intro type slice decoded done
    rw [decodeWithin, decodeOver_eq_ok_iff] at done
    obtain ⟨codec, records, found, row, folded⟩ := done
    have named := (coherent type codec found).named
    obtain ⟨typed, conforms⟩ := conforms_foldlM coherent found ih row named
      (conformsTo_new set codec codec.message) folded
    exact ⟨typed, (conforms_iff (typed ▸ found)).2 conforms⟩

/-- A message is read from the same bytes wherever they stand. -/
theorem readsAnywhere_decodeWithin (coherent : set.Coherent) (levels : Nat) :
    ReadsAnywhere (decodeWithin set levels) := by
  induction levels with
  | zero => exact fun type start start' bytes decoded done => by cases done
  | succ levels ih =>
    intro type start start' bytes decoded done
    rw [decodeWithin, decodeOver_eq_ok_iff] at done ⊢
    obtain ⟨codec, records, found, row, folded⟩ := done
    have good := coherent type codec found
    have row : Record.Row set.limits.maxLength (0 + start) bytes records := by rwa [Nat.zero_add]
    obtain ⟨here, first, rfl⟩ := row.of_shift
    have row' := first.shift start'
    rw [Nat.zero_add] at row'
    rw [foldlM_shift_iff good ih] at folded
    exact ⟨codec, _, found, row', (foldlM_shift_iff good ih start').2 folded⟩

/-- A message is read with a level more from exactly the rows of records that lead to it. -/
theorem decodeWithin_eq_ok_iff (coherent : set.Coherent) {levels start : Nat}
    {bytes : List UInt8} :
    decodeWithin set (levels + 1) name ⟨start, bytes⟩ = .ok message ↔
      ∃ codec records, set.get? name = some codec ∧
        Record.Row set.limits.maxLength 0 bytes records ∧
        records.foldlM (applyRecord set (decodeWithin set levels) codec) (.new name) =
          .ok message := by
  have anywhere := readsAnywhere_decodeWithin coherent (levels + 1)
  have here : decodeWithin set (levels + 1) name ⟨start, bytes⟩ = .ok message ↔
      decodeWithin set (levels + 1) name ⟨0, bytes⟩ = .ok message :=
    ⟨anywhere _ _ _ _ _, anywhere _ _ _ _ _⟩
  rw [here, decodeWithin, decodeOver_eq_ok_iff]
  constructor
  · rintro ⟨codec, records, found, row, folded⟩
    rw [(coherent name codec found).named] at folded
    exact ⟨codec, records, found, row, folded⟩
  · rintro ⟨codec, records, found, row, folded⟩
    refine ⟨codec, records, found, row, ?_⟩
    rwa [(coherent name codec found).named]

/-- Reading a whole message is reading it within the limits. -/
theorem decode_eq_ok_iff {bytes : List UInt8} :
    decode set name bytes = .ok message ↔
      bytes.length ≤ set.limits.maxMessageSize ∧
        decodeWithin set (set.limits.maxDepth + 1) name ⟨0, bytes⟩ = .ok message := by
  unfold decode
  split
  · rename_i tooLong
    simp [Nat.not_le.2 tooLong]
  · rename_i short
    simp [Nat.not_lt.1 short]

end CodecSet

end Protobuf
