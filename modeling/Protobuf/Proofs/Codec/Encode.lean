import Protobuf.Proofs.Codec.Conforms
import Protobuf.Proofs.Success

/-! # What is written

The bytes of a message are those of its fields in declared order, each a row of records, and the
records it does not know. The entry of a map is written as an embedded message with a key and a
value.

## Implementation notes

Writing goes through drafts, which the lemmas here do away with: a draft is what its value is. -/

namespace Protobuf

open Wire

/-- The message of the entry type of a map that holds one entry. -/
def Value.entryOf (entry : String) (held : Value × Value) : Message :=
  ⟨entry, [(1, held.1), (2, held.2)], []⟩

namespace CodecSet

variable {set : CodecSet} {codec : MessageCodec} {plan : FieldPlan} {message : String}

/-- The draft of a value. -/
def draft (set : CodecSet) (value : Value) : Draft :=
  ⟨value.isZero, writeValue set value⟩

theorem get?_drafts (tag : Nat) (fields : List (Nat × Value)) :
    Keyed.get? tag (drafts set fields) = (Keyed.get? tag fields).map (draft set) := by
  induction fields with
  | nil => rfl
  | cons head rest ih =>
    rw [drafts, Keyed.get?, Keyed.get?, ih]
    split <;> rfl

theorem drafts_eq_map (fields : List (Nat × Value)) :
    drafts set fields = fields.map fun field => (field.1, draft set field.2) := by
  induction fields with
  | nil => rfl
  | cons head rest ih =>
    rw [drafts, ih]
    rfl

/-- Writing a message whose fields are all declared is writing its fields and then what it does
not know. -/
theorem encode_eq {source : Message} (found : set.get? source.typeName = some codec)
    (declared : ∀ field ∈ source.fields, (codec.reader? field.1).isSome) :
    encode set source = (· ++ UnknownField.rawAll source.unknown) <$>
      writeFields codec.message (fun tag => (source.get? tag).map (draft set)) [] codec.fields := by
  have known : ∀ field ∈ drafts set source.fields, ¬(codec.reader? field.1).isNone := by
    intro field held
    rw [drafts_eq_map] at held
    obtain ⟨field, there, rfl⟩ := List.mem_map.1 held
    simp [Option.isSome_iff_ne_none.1 (declared field there)]
  rw [encode, writeMessage, codec_eq_ok found, ok_bind]
  split
  · rename_i tag undeclared found
    exact absurd (List.find?_some found) (known _ (List.mem_of_find?_eq_some found))
  · simp only [get?_drafts]
    rfl

/-- A message that is written is of a type that has a codec. -/
theorem exists_codec_of_encode {source : Message} {bytes : List UInt8}
    (done : set.encode source = .ok bytes) : ∃ codec, set.get? source.typeName = some codec := by
  rw [encode, writeMessage] at done
  obtain ⟨codec, there, -⟩ := bind_eq_ok_iff.1 done
  rw [CodecSet.codec] at there
  split at there
  · rename_i codec' found
    exact ⟨codec', found⟩
  · cases there

/-- A message that is written has only fields of its type. -/
theorem declared_of_encode {source : Message} {bytes : List UInt8}
    (found : set.get? source.typeName = some codec) (done : set.encode source = .ok bytes) :
    ∀ field ∈ source.fields, (codec.reader? field.1).isSome := by
  rw [encode, writeMessage, codec_eq_ok found, ok_bind] at done
  split at done
  · cases done
  · rename_i undeclared
    intro field held
    have there : (field.1, draft set field.2) ∈ drafts set source.fields := by
      rw [drafts_eq_map]
      exact List.mem_map.2 ⟨field, held, rfl⟩
    have known := List.find?_eq_none.1 undeclared _ there
    simpa [Option.isSome_iff_ne_none] using known

/-! ## Values -/

theorem writeValue_single {scalar : Scalar} {value : Value} {bytes : List UInt8}
    (form : plan.form = .single scalar) (written : scalar.write? value = some bytes) :
    writeValue set value message plan = .ok (plan.key ++ bytes) := by
  have atom : value.IsAtom := Scalar.Holds.isAtom (Option.isSome_iff_exists.2 ⟨bytes, written⟩)
  cases value <;> first | exact atom.elim | simp [writeValue, form, written]

theorem writeValue_message {source : Message} (form : plan.form = .message source.typeName) :
    writeValue set (.message source) message plan =
      (fun nested => plan.key ++ Write.payload nested) <$> encode set source := by
  obtain ⟨typeName, fields, unknown⟩ := source
  simp only [writeValue, form, if_true]
  rfl

theorem writeElements_cons {source : Message} {rest : List Value} :
    writeElements set (.message source :: rest) message plan source.typeName =
      encode set source >>= fun nested =>
        writeElements set rest message plan source.typeName >>= fun after =>
          .ok (plan.key ++ Write.payload nested ++ after) := by
  obtain ⟨typeName, fields, unknown⟩ := source
  simp only [writeElements, if_true]
  rfl

theorem get?_entryOf (entry : String) (held : Value × Value) (tag : Nat) :
    (Value.entryOf entry held).get? tag =
      if tag = 1 then some held.1 else if tag = 2 then some held.2 else none := rfl

theorem writeEntries_cons {entry : String} {key : Scalar} {value : FieldForm}
    (found : set.get? entry = some (entryCodec entry key value)) {held : Value × Value}
    {rest : List (Value × Value)} :
    writeEntries (entryCodec entry key value) plan (entryDrafts set (held :: rest)) =
      encode set (Value.entryOf entry held) >>= fun nested =>
        writeEntries (entryCodec entry key value) plan (entryDrafts set rest) >>= fun after =>
          .ok (plan.key ++ Write.payload nested ++ after) := by
  obtain ⟨first, second⟩ := held
  have halves : (fun tag => ((Value.entryOf entry (first, second)).get? tag).map (draft set)) =
      fun tag => if tag = 1 then some (draft set first)
        else if tag = 2 then some (draft set second) else none := by
    funext tag
    rw [get?_entryOf]
    split
    · rfl
    · split <;> rfl
  have declared : ∀ field ∈ (Value.entryOf entry (first, second)).fields,
      ((entryCodec entry key value).reader? field.1).isSome := by
    intro field held
    simp only [Value.entryOf, List.mem_cons, List.not_mem_nil, or_false] at held
    rcases held with rfl | rfl <;> rfl
  have step : writeEntries (entryCodec entry key value) plan
      (entryDrafts set ((first, second) :: rest)) =
        writeFields entry (fun tag => if tag = 1 then some (draft set first)
          else if tag = 2 then some (draft set second) else none) []
          (entryCodec entry key value).fields >>= fun known =>
        writeEntries (entryCodec entry key value) plan (entryDrafts set rest) >>= fun after =>
          .ok (plan.key ++ Write.payload known ++ after) := rfl
  have named : set.get? (Value.entryOf entry (first, second)).typeName =
      some (entryCodec entry key value) := found
  rw [encode_eq named declared, halves, step]
  change _ = (_ <$> writeFields entry _ [] (entryCodec entry key value).fields) >>= _
  cases writeFields entry _ [] (entryCodec entry key value).fields with
  | error error => rfl
  | ok known => simp [Value.entryOf, UnknownField.rawAll]

/-! ## Fields -/

/-- Some bytes are what a field is written as, given the draft of its value if it is set. -/
inductive Part (message : String) (draft? : Nat → Option Draft) (plan : FieldPlan) :
    List UInt8 → Prop
  | absent (missing : draft? plan.tag = none) : Part message draft? plan []
  | zero {draft : Draft} (there : draft? plan.tag = some draft)
    (implicit : plan.presence = .implicit) (zero : draft.zero) : Part message draft? plan []
  | written {draft : Draft} {bytes : List UInt8} (there : draft? plan.tag = some draft)
    (kept : plan.presence = .implicit → draft.zero = false)
    (done : draft.write message plan = .ok bytes) : Part message draft? plan bytes

/-- Fields of which no two are set members of one group are written one behind another. -/
theorem writeFields_eq_ok {draft? : Nat → Option Draft} {part : FieldPlan → List UInt8}
    {groups : List String} {plans : List FieldPlan}
    (parts : ∀ plan ∈ plans, Part message draft? plan (part plan))
    (fresh : ∀ plan ∈ plans, ∀ group, plan.presence = .oneof group →
      (draft? plan.tag).isSome → group ∉ groups)
    (exclusive : plans.Pairwise fun plan other => ∀ group, plan.presence = .oneof group →
      other.presence = .oneof group → (draft? plan.tag).isSome → draft? other.tag = none) :
    writeFields message draft? groups plans = .ok (plans.flatMap part) := by
  induction plans generalizing groups with
  | nil => rfl
  | cons plan rest ih =>
    obtain ⟨apart, exclusive⟩ := List.pairwise_cons.1 exclusive
    obtain ⟨here, parts⟩ := List.forall_mem_cons.1 parts
    obtain ⟨free, fresh⟩ := List.forall_mem_cons.1 fresh
    have later := ih parts fresh exclusive
    rw [List.flatMap_cons, writeFields]
    generalize part plan = bytes at here
    cases here with
    | absent missing => simp only [missing, later, List.nil_append]
    | zero there implicit zero =>
      simp only [there, implicit, zero, if_true, later, List.nil_append]
    | @written draft _ there kept done =>
      simp only [there]
      split
      · rename_i implicit
        rw [if_neg (by simp [kept implicit]), done, ok_bind, later, ok_bind, pure_eq_ok]
      · rename_i group named
        have unused : ¬groups.contains group := by
          simpa using free group named (by rw [there]; rfl)
        have fresh' : ∀ other ∈ rest, ∀ group', other.presence = .oneof group' →
            (draft? other.tag).isSome → group' ∉ group :: groups := by
          intro other held group' named' there'
          rw [List.mem_cons, not_or]
          refine ⟨?_, fresh other held group' named' there'⟩
          rintro rfl
          have missing := apart other held group' named named' (by rw [there]; rfl)
          simp [missing] at there'
        have later' := ih parts fresh' exclusive
        rw [if_neg unused, done, ok_bind, later', ok_bind, pure_eq_ok]
      · rw [done, ok_bind, later, ok_bind, pure_eq_ok]

/-! ## Limits -/

section Limits

variable (set : CodecSet) (limits : Limits)

theorem writeMessage_withLimits (typeName : String) (drafts : List (Nat × Draft))
    (unknown : List UnknownField) :
    writeMessage (set.withLimits limits) typeName drafts unknown =
      writeMessage set typeName drafts unknown := rfl

mutual

theorem writeValue_withLimits : ∀ value : Value,
    writeValue (set.withLimits limits) value = writeValue set value
  | .message ⟨typeName, fields, unknown⟩ => by
    funext message plan
    simp only [writeValue, drafts_withLimits fields, writeMessage_withLimits]
  | .list elements => by
    funext message plan
    simp only [writeValue, writeElements_withLimits elements]
  | .map entries => by
    funext message plan
    simp only [writeValue, entryDrafts_withLimits entries]
    rfl
  | .bool _ | .int32 _ | .int64 _ | .uint32 _ | .uint64 _ | .float _ | .double _ | .string _
  | .bytes _ | .enum _ => by
    funext message plan
    simp only [writeValue]

theorem writeElements_withLimits : ∀ elements : List Value,
    writeElements (set.withLimits limits) elements = writeElements set elements
  | [] => rfl
  | value :: rest => by
    funext message plan type
    cases value with
    | message source =>
      obtain ⟨typeName, fields, unknown⟩ := source
      simp only [writeElements, drafts_withLimits fields, writeElements_withLimits rest,
        writeMessage_withLimits]
    | _ => simp only [writeElements]

theorem drafts_withLimits : ∀ fields : List (Nat × Value),
    drafts (set.withLimits limits) fields = drafts set fields
  | [] => rfl
  | (tag, value) :: rest => by
    rw [drafts, drafts, writeValue_withLimits value, drafts_withLimits rest]

theorem entryDrafts_withLimits : ∀ entries : List (Value × Value),
    entryDrafts (set.withLimits limits) entries = entryDrafts set entries
  | [] => rfl
  | (key, value) :: rest => by
    rw [entryDrafts, entryDrafts, writeValue_withLimits key, writeValue_withLimits value,
      entryDrafts_withLimits rest]

end

/-- Limits do not matter for writing. -/
theorem encode_withLimits (message : Message) :
    (set.withLimits limits).encode message = set.encode message := by
  rw [encode, encode, drafts_withLimits, writeMessage_withLimits]

end Limits

end CodecSet

end Protobuf
