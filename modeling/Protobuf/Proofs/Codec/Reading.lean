import Protobuf.Codec.Decode
import Protobuf.Proofs.Codec.Merge

/-! # What a record stands for

A record of a declared field stands for a value that the field could hold, and applying the record
to a message is merging this value into the field. So a record stands for a message with nothing
else set, and reading a row of records is merging such messages one after another.

## Implementation notes

`Reads` says which value a record stands for when there is one. It leaves out the place of the
record, which matters to errors only. -/

namespace Protobuf

open Wire

namespace CodecSet

variable {set : CodecSet} {nested : String → Slice → Except CodecError Message}
  {codec : MessageCodec} {name : String} {plan : FieldPlan} {record : Record}

/-- The value that a record of a field stands for. -/
def fieldValue (set : CodecSet) (nested : String → Slice → Except CodecError Message)
    (codec : MessageCodec) (plan : FieldPlan) (record : Record) : Except CodecError Value :=
  match plan.form with
  | .single scalar => expect codec plan record (scalar.read? record.value)
  | .repeated scalar => .list <$> expect codec plan record (scalar.readAll? record.value)
  | .packed kind =>
    .list <$> expect codec plan record ((Scalar.numeric kind).readAll? record.value)
  | .message type => do
    let slice ← expect codec plan record (record.value.payload?.map .ok)
    .message <$> nested type slice
  | .messages type => do
    let slice ← expect codec plan record (record.value.payload?.map .ok)
    (fun decoded => .list [.message decoded]) <$> nested type slice
  | .map entry => do
    let slice ← expect codec plan record (record.value.payload?.map .ok)
    let entryCodec ← set.codec entry
    let decoded ← nested entry slice
    match (decoded.get? 1).or (entryCodec.default? 1), (decoded.get? 2).or (entryCodec.default? 2)
    with
    | some key, some value => return .map [(key, value)]
    | _, _ => throw (.unknownMessage entry)

/-- The message that a record stands for. -/
def recordMessage (set : CodecSet) (nested : String → Slice → Except CodecError Message)
    (codec : MessageCodec) (record : Record) : Except CodecError Message :=
  match codec.reader? record.key.tag with
  | some plan => (MessageOf.new codec.message).set plan.tag <$>
      fieldValue set nested codec plan record
  | none => .ok ((MessageOf.new codec.message).addUnknown [record.keep])

/-- Values added to a field are a list merged into it. -/
theorem mergeValue_append (message : Message) (tag : Nat) (values : List Value) :
    mergeValue set (message.get? tag) (.list values) >>= (fun merged =>
      .ok (message.set tag merged)) = .ok (append message tag values) := by
  unfold append
  split
  · rename_i elements held
    rw [held]
    rfl
  · rename_i other
    cases held : message.get? tag with
    | none => rfl
    | some value =>
      cases value with
      | list elements => exact absurd held (other elements)
      | _ => rfl

/-- An embedded message is merged into the one that a field holds, and replaces anything else. -/
theorem mergeValue_embedded (message : Message) (tag : Nat) (decoded : Message) :
    mergeValue set (message.get? tag) (.message decoded) >>= (fun merged =>
      .ok (message.set tag merged)) =
        match message.get? tag with
        | some (.message held) => do
          let merged ← set.merge held decoded
          return message.set tag (.message merged)
        | _ => return message.set tag (.message decoded) := by
  split
  · rename_i held there
    rw [there, mergeValue_message]
    cases merge set held decoded <;> rfl
  · rename_i other
    cases held : message.get? tag with
    | none => rw [mergeValue_none, ok_bind, pure_eq_ok]
    | some value =>
      cases value with
      | message held' => exact absurd held (other held')
      | _ => rfl

/-- An entry set in a field is a map of this entry merged into it. -/
theorem mergeValue_setEntry (message : Message) (tag : Nat) (key value : Value) :
    mergeValue set (message.get? tag) (.map [(key, value)]) >>= (fun merged =>
      .ok (message.set tag merged)) = .ok (setEntry message tag key value) := by
  unfold setEntry
  split
  · rename_i entries held
    rw [held]
    rfl
  · rename_i other
    cases held : message.get? tag with
    | none => rfl
    | some value =>
      cases value with
      | map entries => exact absurd held (other entries)
      | _ => rfl

/-- A field that is no member of a group has no rivals to clear. -/
theorem clearOthers_of_isRepeated (coherent : codec.Coherent set name) (held : plan ∈ codec.fields)
    (repeated : plan.form.isRepeated) (message : Message) :
    codec.clearOthers plan message = message := by
  have alone : plan.oneof = none := by
    cases group : plan.oneof with
    | none => rfl
    | some group' =>
      have single := coherent.member plan held (by simp [group])
      simp [repeated] at single
  simp [MessageCodec.clearOthers, alone]

theorem expect_eq_ok_iff {α : Type} {reading : Option (Except Error α)} {a : α} :
    expect codec plan record reading = .ok a ↔ reading = some (.ok a) := by
  rcases reading with _ | _ | _ <;> simp [expect]

/-- Applying a record of a field is merging the value it stands for. -/
theorem applyField_eq (coherent : codec.Coherent set name) (planned : plan ∈ codec.fields)
    (message : Message) :
    applyField set nested codec plan message record =
      fieldValue set nested codec plan record >>= fun value =>
        mergeValue set ((codec.clearOthers plan message).get? plan.tag) value >>= fun merged =>
          .ok ((codec.clearOthers plan message).set plan.tag merged) := by
  unfold applyField fieldValue
  cases form : plan.form with
  | single scalar =>
    simp only
    cases reading : expect codec plan record (scalar.read? record.value) with
    | error error => rfl
    | ok value =>
      have holds := Scalar.holds_of_read? (expect_eq_ok_iff.1 reading)
      rw [ok_bind, ok_bind, mergeValue_atom holds.isAtom, ok_bind, pure_eq_ok]
  | repeated scalar =>
    simp only [clearOthers_of_isRepeated coherent planned (by rw [form]; rfl)]
    cases expect codec plan record (scalar.readAll? record.value) with
    | error error => rfl
    | ok values => exact (mergeValue_append message plan.tag values).symm
  | packed kind =>
    simp only [clearOthers_of_isRepeated coherent planned (by rw [form]; rfl)]
    cases expect codec plan record ((Scalar.numeric kind).readAll? record.value) with
    | error error => rfl
    | ok values => exact (mergeValue_append message plan.tag values).symm
  | message type =>
    simp only
    cases expect codec plan record (record.value.payload?.map .ok) with
    | error error => rfl
    | ok slice =>
      simp only [ok_bind]
      cases nested type slice with
      | error error => rfl
      | ok decoded =>
        simp only [ok_bind, map_ok]
        exact (mergeValue_embedded (codec.clearOthers plan message) plan.tag decoded).symm
  | messages type =>
    simp only [clearOthers_of_isRepeated coherent planned (by rw [form]; rfl)]
    cases expect codec plan record (record.value.payload?.map .ok) with
    | error error => rfl
    | ok slice =>
      simp only [ok_bind]
      cases nested type slice with
      | error error => rfl
      | ok decoded => exact (mergeValue_append message plan.tag [.message decoded]).symm
  | map entry =>
    simp only [clearOthers_of_isRepeated coherent planned (by rw [form]; rfl)]
    cases expect codec plan record (record.value.payload?.map .ok) with
    | error error => rfl
    | ok slice =>
      simp only [ok_bind]
      cases set.codec entry with
      | error error => rfl
      | ok entryCodec =>
        simp only [ok_bind]
        cases nested entry slice with
        | error error => rfl
        | ok decoded =>
          simp only [ok_bind]
          generalize (decoded.get? 1).or (entryCodec.default? 1) = key
          generalize (decoded.get? 2).or (entryCodec.default? 2) = value
          rcases key with _ | key <;> rcases value with _ | value <;> try rfl
          exact (mergeValue_setEntry message plan.tag key value).symm

/-- Merging a message with one field set is merging its value. -/
theorem merge_set {message : Message} (found : set.get? message.typeName = some codec)
    {tag : Nat} (planned : codec.reader? tag = some plan) (typeName : String) (value : Value) :
    merge set message ((MessageOf.new typeName).set tag value) =
      mergeValue set ((codec.clearOthers plan message).get? tag) value >>= fun merged =>
        .ok ((codec.clearOthers plan message).set tag merged) := by
  have fields : ((MessageOf.new typeName).set tag value : Message).fields = [(tag, value)] := rfl
  rw [merge, codec_eq_ok found, ok_bind, fields, mergeFields_cons]
  simp only [MessageCodec.clearFor, planned]
  cases mergeValue set ((codec.clearOthers plan message).get? tag) value with
  | error error => rfl
  | ok merged => simp [mergeFields]

/-- Merging a message that has only unknown records adds these. -/
theorem merge_addUnknown {message : Message} (found : set.get? message.typeName = some codec)
    (typeName : String) (unknown : List UnknownField) :
    merge set message ((MessageOf.new typeName).addUnknown unknown) =
      .ok (message.addUnknown unknown) := by
  rw [merge, codec_eq_ok found, ok_bind]
  rfl

/-- Applying a record is merging the message it stands for. -/
theorem applyRecord_eq (coherent : codec.Coherent set name) {message : Message}
    (found : set.get? message.typeName = some codec) :
    applyRecord set nested codec message record =
      recordMessage set nested codec record >>= merge set message := by
  unfold applyRecord recordMessage
  cases planned : codec.reader? record.key.tag with
  | none => exact (merge_addUnknown found codec.message [record.keep]).symm
  | some plan =>
    simp only
    rw [applyField_eq coherent (MessageCodec.reader?_mem planned)]
    cases fieldValue set nested codec plan record with
    | error error => rfl
    | ok value =>
      rw [ok_bind, map_ok, ok_bind, MessageCodec.reader?_tag planned, merge_set found planned]

/-! ## Values of records -/

/-- A record's value stands for what a field of a form holds. -/
inductive Reads (set : CodecSet) (nested : String → Slice → Except CodecError Message) :
    FieldForm → RawValue → Value → Prop
  | single {scalar : Scalar} {raw : RawValue} {value : Value}
    (read : scalar.read? raw = some (.ok value)) : Reads set nested (.single scalar) raw value
  | repeated {scalar : Scalar} {raw : RawValue} {values : List Value}
    (read : scalar.readAll? raw = some (.ok values)) :
    Reads set nested (.repeated scalar) raw (.list values)
  | packed {kind : Numeric} {raw : RawValue} {values : List Value}
    (read : (Scalar.numeric kind).readAll? raw = some (.ok values)) :
    Reads set nested (.packed kind) raw (.list values)
  | message {type : String} {slice : Slice} {decoded : Message}
    (done : nested type slice = .ok decoded) :
    Reads set nested (.message type) (.payload slice) (.message decoded)
  | messages {type : String} {slice : Slice} {decoded : Message}
    (done : nested type slice = .ok decoded) :
    Reads set nested (.messages type) (.payload slice) (.list [.message decoded])
  | map {entry : String} {key : Scalar} {value : FieldForm} {slice : Slice} {decoded : Message}
    (found : set.get? entry = some (entryCodec entry key value))
    (done : nested entry slice = .ok decoded) :
    Reads set nested (.map entry) (.payload slice)
      (.map [((decoded.get? 1).getD key.zero, (decoded.get? 2).getD value.zero)])

theorem payload?_map_eq_ok_iff {raw : RawValue} {slice : Slice} :
    raw.payload?.map .ok = some (.ok slice : Except Error Slice) ↔ raw = .payload slice := by
  cases raw <;> simp [RawValue.payload?]

/-- A field that is left out of an entry reads as zero. -/
theorem default?_entryCodec (entry : String) (key : Scalar) (value : FieldForm) :
    (entryCodec entry key value).default? 1 = some key.zero ∧
      (entryCodec entry key value).default? 2 = some value.zero :=
  ⟨rfl, rfl⟩

/-- A record has a value exactly if it reads as one. -/
theorem fieldValue_eq_ok_iff (closed : plan.form.Closed set) {value : Value} :
    fieldValue set nested codec plan record = .ok value ↔
      Reads set nested plan.form record.value value := by
  unfold fieldValue
  cases form : plan.form with
  | single scalar =>
    simp only [expect_eq_ok_iff]
    refine ⟨.single, fun reads => ?_⟩
    cases reads with
    | single read => exact read
  | repeated scalar =>
    simp only [map_eq_ok_iff, expect_eq_ok_iff]
    constructor
    · rintro ⟨values, read, rfl⟩
      exact .repeated read
    · intro reads
      cases reads with
      | repeated read => exact ⟨_, read, rfl⟩
  | packed kind =>
    simp only [map_eq_ok_iff, expect_eq_ok_iff]
    constructor
    · rintro ⟨values, read, rfl⟩
      exact .packed read
    · intro reads
      cases reads with
      | packed read => exact ⟨_, read, rfl⟩
  | message type =>
    simp only [bind_eq_ok_iff, map_eq_ok_iff, expect_eq_ok_iff, payload?_map_eq_ok_iff]
    constructor
    · rintro ⟨slice, same, decoded, done, rfl⟩
      exact same ▸ .message done
    · intro reads
      generalize raw : record.value = value at reads
      cases reads with
      | message done => exact ⟨_, rfl, _, done, rfl⟩
  | messages type =>
    simp only [bind_eq_ok_iff, map_eq_ok_iff, expect_eq_ok_iff, payload?_map_eq_ok_iff]
    constructor
    · rintro ⟨slice, same, decoded, done, rfl⟩
      exact same ▸ .messages done
    · intro reads
      generalize raw : record.value = value at reads
      cases reads with
      | messages done => exact ⟨_, rfl, _, done, rfl⟩
  | map entry =>
    rw [form] at closed
    cases closed with
    | @map _ key form' isKey single found =>
      obtain ⟨first, second⟩ := default?_entryCodec entry key form'
      simp only [bind_eq_ok_iff, expect_eq_ok_iff, payload?_map_eq_ok_iff, codec_eq_ok found,
        Except.ok.injEq, exists_eq_left']
      constructor
      · rintro ⟨slice, same, decoded, done, result⟩
        simp only [first, second, Option.or_some, pure_eq_ok, Except.ok.injEq] at result
        exact same ▸ result ▸ .map found done
      · intro reads
        generalize raw : record.value = value at reads
        cases reads with
        | @map _ key' form'' slice decoded found' done =>
          obtain ⟨rfl, rfl⟩ := entryCodec_unique found found'
          refine ⟨slice, rfl, decoded, done, ?_⟩
          simp only [first, second, Option.or_some, pure_eq_ok]

/-- A field with one value fits what it reads as while it is not set. -/
theorem fits_zero {form : FieldForm} (closed : form.Closed set) (single : form.isRepeated = false) :
    Fits set form form.zero := by
  cases closed with
  | single scalar => exact .single scalar.holds_zero
  | message found => exact .message rfl ((conforms_iff found).2 (conformsTo_new set _ _))
  | _ => cases single

/-- Embedded messages that are read are of their type and conform. -/
def ReadsConforming (set : CodecSet) (nested : String → Slice → Except CodecError Message) :
    Prop :=
  ∀ type slice decoded, nested type slice = .ok decoded →
    decoded.typeName = type ∧ Conforms set decoded

/-- The value of a record fits its field. -/
theorem Reads.fits (coherent : set.Coherent) (conforming : ReadsConforming set nested)
    {form : FieldForm} (closed : form.Closed set) {raw : RawValue} {value : Value}
    (reads : Reads set nested form raw value) : Fits set form value := by
  cases reads with
  | single read => exact .single (Scalar.holds_of_read? read)
  | repeated read => exact .repeated (Scalar.holds_of_readAll? read)
  | packed read => exact .packed (Scalar.holds_of_readAll? read)
  | message done =>
    obtain ⟨named, conforms⟩ := conforming _ _ _ done
    exact .message named conforms
  | messages done =>
    obtain ⟨named, conforms⟩ := conforming _ _ _ done
    refine .messages fun element held => ?_
    rw [List.mem_singleton.1 held]
    exact .message named conforms
  | @map entry key form' slice decoded found done =>
    obtain ⟨named, conforms⟩ := conforming _ _ _ done
    have conforms := (conforms_iff (named ▸ found)).1 conforms
    have closed' : form'.Closed set := (coherent entry _ found).closed
      ⟨"value", 2, form', none, false, none⟩ (List.mem_cons_of_mem _ List.mem_cons_self)
    have single : form'.isRepeated = false := by
      cases closed with
      | map isKey single found' =>
        obtain ⟨-, rfl⟩ := entryCodec_unique found found'
        exact single
    have first : key.Holds ((decoded.get? 1).getD key.zero) := by
      cases held : decoded.get? 1 with
      | none => exact key.holds_zero
      | some value =>
        have fits : Fits set (.single key) value := conforms.fits_plan held rfl
        cases fits with
        | single holds => exact holds
    have second : Fits set form' ((decoded.get? 2).getD form'.zero) := by
      cases held : decoded.get? 2 with
      | none => exact fits_zero closed' single
      | some value =>
        exact conforms.fits_plan held rfl
    refine .map found ?_ ?_ (List.nodup_singleton _)
    · intro held there
      rw [List.mem_singleton.1 there]
      exact first
    · intro held there
      rw [List.mem_singleton.1 there]
      exact second

/-- What a record stands for: a message with its field set, or with the record itself. -/
theorem recordMessage_eq_ok_iff (coherent : codec.Coherent set name) {message : Message} :
    recordMessage set nested codec record = .ok message ↔
      (∃ plan value, codec.reader? record.key.tag = some plan ∧
        Reads set nested plan.form record.value value ∧
        message = (MessageOf.new name).set record.key.tag value) ∨
      codec.reader? record.key.tag = none ∧
        message = (MessageOf.new name).addUnknown [record.keep] := by
  unfold recordMessage
  rw [coherent.named]
  cases planned : codec.reader? record.key.tag with
  | none => simp [eq_comm]
  | some plan =>
    have closed := coherent.closed plan (MessageCodec.reader?_mem planned)
    simp only [map_eq_ok_iff, fieldValue_eq_ok_iff closed, MessageCodec.reader?_tag planned,
      Option.some.injEq, exists_and_left, exists_eq_left', reduceCtorEq, false_and, or_false]
    simp only [eq_comm]

/-- The message that a record stands for conforms. -/
theorem conforms_recordMessage (coherent : set.Coherent) (found : set.get? name = some codec)
    (conforming : ReadsConforming set nested) {maxLength place : Nat} {bytes : List UInt8}
    (form : record.Spells maxLength place bytes) {message : Message}
    (done : recordMessage set nested codec record = .ok message) :
    message.typeName = name ∧ ConformsTo set codec message := by
  rcases (recordMessage_eq_ok_iff (coherent name codec found)).1 done with
    ⟨plan, value, planned, reads, rfl⟩ | ⟨unplanned, rfl⟩
  · have closed := (coherent name codec found).closed plan (MessageCodec.reader?_mem planned)
    exact ⟨rfl, conformsTo_set planned (reads.fits coherent conforming closed)⟩
  · refine ⟨rfl, (conformsTo_new set codec name).addUnknown fun field held => ?_⟩
    rw [List.mem_singleton.1 held]
    exact ⟨form.isRecord_keep, unplanned⟩

/-- A record of a tag that the type does not have is kept. -/
theorem applyRecord_eq_addUnknown (unplanned : codec.reader? record.key.tag = none)
    (message : Message) :
    applyRecord set nested codec message record = .ok (message.addUnknown [record.keep]) := by
  simp only [applyRecord, unplanned]

/-- A field that is set and its rivals change; all other fields stay as they are. -/
theorem get?_set_clearOthers (good : codec.Coherent set name) {tag : Nat}
    (planned : codec.reader? tag = some plan) (message : Message) (value : Value) (other : Nat) :
    ((codec.clearOthers plan message).set tag value).get? other =
      if other = tag then some value
      else if codec.Rivals tag other then none else message.get? other := by
  rw [MessageOf.get?_set, good.get?_clearOthers planned]

/-- Applying a record of a field merges the value it stands for into what the field holds. -/
theorem applyRecord_eq_ok_iff (good : codec.Coherent set name)
    (planned : codec.reader? record.key.tag = some plan) {before after : Message} :
    applyRecord set nested codec before record = .ok after ↔
      ∃ value merged, Reads set nested plan.form record.value value ∧
        mergeValue set (before.get? record.key.tag) value = .ok merged ∧
        after = (codec.clearOthers plan before).set record.key.tag merged := by
  have among := MessageCodec.reader?_mem planned
  have self : (codec.clearOthers plan before).get? record.key.tag =
      before.get? record.key.tag := by
    rw [good.get?_clearOthers planned, if_neg fun rivals => rivals.1 rfl]
  have tag := MessageCodec.reader?_tag planned
  simp only [applyRecord, planned, applyField_eq good among, tag, self, bind_eq_ok_iff,
    fieldValue_eq_ok_iff (good.closed plan among), Except.ok.injEq]
  constructor
  · rintro ⟨value, reads, merged, done, rfl⟩
    exact ⟨value, merged, reads, done, rfl⟩
  · rintro ⟨value, merged, reads, done, rfl⟩
    exact ⟨value, reads, merged, done, rfl⟩

/-! ## Places -/

/-- Embedded messages are read alike wherever they stand. -/
def ReadsAnywhere (nested : String → Slice → Except CodecError Message) : Prop :=
  ∀ type start start' bytes decoded, nested type ⟨start, bytes⟩ = .ok decoded →
    nested type ⟨start', bytes⟩ = .ok decoded

/-- A record's value stands for the same wherever it stands. -/
theorem reads_atStart_iff (anywhere : ReadsAnywhere nested) {form : FieldForm} {raw : RawValue}
    {value : Value} :
    Reads set nested form raw.atStart value ↔ Reads set nested form raw value := by
  cases raw with
  | word layout n => exact Iff.rfl
  | payload slice =>
    constructor
    · intro reads
      generalize start : (RawValue.payload slice).atStart = raw at reads
      cases reads with
      | single read => exact .single (Scalar.read?_atStart_iff.1 (start ▸ read))
      | repeated read => exact .repeated (Scalar.readAll?_atStart_iff.1 (start ▸ read))
      | packed read => exact .packed (Scalar.readAll?_atStart_iff.1 (start ▸ read))
      | message done =>
        cases start
        exact .message (anywhere _ _ _ _ _ done)
      | messages done =>
        cases start
        exact .messages (anywhere _ _ _ _ _ done)
      | map found done =>
        cases start
        exact .map found (anywhere _ _ _ _ _ done)
    · intro reads
      cases reads with
      | single read => exact .single (Scalar.read?_atStart_iff.2 read)
      | repeated read => exact .repeated (Scalar.readAll?_atStart_iff.2 read)
      | packed read => exact .packed (Scalar.readAll?_atStart_iff.2 read)
      | message done => exact .message (anywhere _ _ _ _ _ done)
      | messages done => exact .messages (anywhere _ _ _ _ _ done)
      | map found done => exact .map found (anywhere _ _ _ _ _ done)

/-- Applying a record comes to the same wherever the record stands. -/
theorem applyRecord_shift_iff (coherent : codec.Coherent set name)
    (anywhere : ReadsAnywhere nested) (distance : Nat) {message result : Message} :
    applyRecord set nested codec message (record.shift distance) = .ok result ↔
      applyRecord set nested codec message record = .ok result := by
  unfold applyRecord
  rw [Record.key_shift, Record.keep_shift]
  cases planned : codec.reader? record.key.tag with
  | none => exact Iff.rfl
  | some plan =>
    have among := MessageCodec.reader?_mem planned
    have closed := coherent.closed plan among
    have alike : ∀ value, fieldValue set nested codec plan (record.shift distance) = .ok value ↔
        fieldValue set nested codec plan record = .ok value := by
      intro value
      rw [fieldValue_eq_ok_iff closed, fieldValue_eq_ok_iff closed, ← reads_atStart_iff anywhere,
        Record.value_shift, RawValue.atStart_shift, reads_atStart_iff anywhere]
    simp only [applyField_eq coherent among, bind_eq_ok_iff, alike]

/-- A row of records comes to the same wherever it stands. -/
theorem foldlM_shift_iff (coherent : codec.Coherent set name) (anywhere : ReadsAnywhere nested)
    (distance : Nat) {records : List Record} {message result : Message} :
    (records.map (·.shift distance)).foldlM (applyRecord set nested codec) message = .ok result ↔
      records.foldlM (applyRecord set nested codec) message = .ok result := by
  induction records generalizing message with
  | nil => exact Iff.rfl
  | cons record rest ih =>
    simp only [List.map_cons, List.foldlM_cons, bind_eq_ok_iff,
      applyRecord_shift_iff coherent anywhere, ih]

end CodecSet

end Protobuf
