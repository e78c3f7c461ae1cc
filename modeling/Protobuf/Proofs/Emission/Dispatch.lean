import Protobuf.Emission.Module
import Protobuf.Proofs.Codec.Refusal
import Protobuf.Proofs.Codec.Typing
import Protobuf.Proofs.Emission.Order

/-! # Emitted reading takes what is accepted

The arms of an emitted method that reads a message are for the records that its codec accepts, each
for one tag and one wire type. Main statement: `decoderArms_exact`.

## Implementation notes

What an arm is for is told from the field and its type, and what a codec accepts from the plan of
the field. Both come to the same row of keys, `FieldPlan.keys`, one field at a time. -/

namespace Protobuf

open Wire

namespace FieldPlan

variable {plan : FieldPlan} {key : Key}

/-- The tag of a field with each wire type that its plan accepts. -/
def keys (plan : FieldPlan) : List Key :=
  ⟨plan.tag, plan.form.singleWireType⟩ ::
    if plan.form.acceptsPacked then [⟨plan.tag, .lengthDelimited⟩] else []

theorem mem_keys_iff :
    key ∈ plan.keys ↔ key.tag = plan.tag ∧ plan.accepts key.wireType := by
  obtain ⟨tag, wireType⟩ := key
  rw [accepts_iff, keys, List.mem_cons, Key.mk.injEq, and_or_left]
  refine or_congr_right ?_
  cases plan.form.acceptsPacked <;> simp

/-- Single values that can be packed are no payloads, so there are no two ways to the same key. -/
theorem nodup_keys (plan : FieldPlan) : plan.keys.Nodup := by
  unfold keys
  cases form : plan.form with
  | repeated scalar =>
    cases scalar with
    | numeric kind => cases kind <;> simp [FieldForm.acceptsPacked, Scalar.isPackable,
        FieldForm.singleWireType, Scalar.wireType, Numeric.layout, Word.wireType]
    | string | bytes => simp [FieldForm.acceptsPacked, Scalar.isPackable]
  | packed kind => cases kind <;> simp [FieldForm.acceptsPacked, FieldForm.singleWireType,
      Numeric.layout, Word.wireType]
  | single | message | messages | map => simp [FieldForm.acceptsPacked]

end FieldPlan

namespace Emission

/-- The key of the records that an arm is for. -/
def Arm.key (arm : Arm) : Key :=
  ⟨arm.tag, arm.wireType⟩

/-- The text of an arm starts with the tag and the wire type that it is for. -/
theorem Arm.exists_lines_toSource (arm : Arm) (level : Nat) : ∃ what more,
    arm.toSource.lines level = Source.indented level
      ("(" ++ toString arm.tag ++ ", " ++ wireTypePath arm.wireType ++ ") =>" ++ what) ::
        more := by
  obtain ⟨tag, wireType, body⟩ := arm
  cases body with
  | expression text =>
    refine ⟨" " ++ text ++ ",", [], ?_⟩
    rw [← String.append_assoc, ← String.append_assoc]
    rfl
  | statements body => exact ⟨" \x7b", _, rfl⟩

section Field

variable {registry : Registry} {type : MessageType} {names : Names} {field : Field}

/-- The keys of a field that takes no runs. -/
theorem keys_of_single {plan : FieldPlan} (single : plan.form.acceptsPacked = false) :
    plan.keys = [⟨plan.tag, plan.form.singleWireType⟩] := by
  rw [FieldPlan.keys, single, if_neg Bool.false_ne_true]

/-- A field that has a single value, a map or messages takes no runs. -/
theorem acceptsPacked_ofField {message : String} (single : field.cardinality.isRepeated = false ∨
    Scalar.ofType? field.type = none) :
    (FieldForm.ofField message field).acceptsPacked = false := by
  unfold FieldForm.ofField
  cases kind : field.type with
  | builtin type =>
    rw [single.resolve_right (by rw [kind]; nofun)]
    rfl
  | enum name =>
    rw [single.resolve_right (by rw [kind]; nofun)]
    rfl
  | message name => cases field.cardinality.isRepeated <;> rfl
  | map key value => rfl

/-- A field that is no member of a group is read by an arm for each key of its plan. -/
theorem map_key_readField (identifier message : String) :
    (readField names identifier field (.ofField registry message field)).map Arm.key =
      (FieldPlan.ofField registry message field).keys := by
  unfold readField
  cases scalar : Scalar.ofType? field.type with
  | none =>
    rw [keys_of_single (acceptsPacked_ofField (.inr scalar))]
    cases kind : field.type with
    | builtin | enum =>
      rw [kind] at scalar
      cases scalar
    | message name =>
      simp only
      split <;> rfl
    | map key value => rfl
  | some scalar' =>
    cases kind : field.type with
    | builtin | enum =>
      cases repeated : field.cardinality.isRepeated with
      | true =>
        simp only [if_true, List.map_cons, FieldPlan.keys]
        split <;> rfl
      | false =>
        rw [keys_of_single (acceptsPacked_ofField (.inl repeated))]
        simp only [Bool.false_eq_true, if_false]
        split <;> rfl
    | message | map =>
      rw [kind] at scalar
      cases scalar

/-- A member of a group is read by an arm for the key of its plan. -/
theorem map_key_readVariant (identifier path message : String)
    (single : field.cardinality.isRepeated = false) (unmapped : field.type.isMap = false) :
    ((readVariant names identifier path field.type).map fun body =>
      (⟨field.tag, (FieldForm.ofField message field).singleWireType, body⟩ : Arm)).toList.map
        Arm.key = (FieldPlan.ofField registry message field).keys := by
  rw [keys_of_single (acceptsPacked_ofField (.inl single))]
  unfold readVariant
  cases kind : field.type with
  | map => simp [kind, FieldType.isMap] at unmapped
  | _ => rfl

/-- A declared field is read by an arm for each key of its plan. -/
theorem map_key_readArms (valid : type.Valid registry) (declared : field ∈ type.fields)
    {codec : MessageCodec}
    (planned : codec.reader? field.tag = some (.ofField registry type.name field)) :
    (readArms ⟨type, codec, membersOf type, names⟩ field).map Arm.key =
      (FieldPlan.ofField registry type.name field).keys := by
  obtain ⟨member, found, sound, -⟩ := exists_member (List.pairwise_map.2 valid.tags) declared
  unfold readArms
  simp only [planned, found]
  cases grouped : field.oneof with
  | none => exact map_key_readField member.identifier type.name
  | some group =>
    obtain ⟨variant, named, -⟩ := sound.variant group grouped
    have grouped : field.oneof.isSome := by rw [grouped]; rfl
    obtain ⟨single, unmapped⟩ := (valid.fields field declared).member grouped
    rw [named]
    exact map_key_readVariant member.identifier _ type.name (by rw [single]; rfl) unmapped

end Field

/-- The arms of a message are for the keys of its fields, in declared order. -/
theorem map_key_decoderArms {registry : Registry} {type : MessageType} {codec : MessageCodec}
    (valid : type.Valid registry)
    (planned : ∀ field ∈ type.fields,
      codec.reader? field.tag = some (.ofField registry type.name field)) (names : Names) :
    (decoderArms ⟨type, codec, membersOf type, names⟩).map Arm.key =
      type.fields.flatMap fun field => (FieldPlan.ofField registry type.name field).keys := by
  rw [decoderArms, List.map_flatMap]
  exact List.flatMap_congr fun field declared =>
    map_key_readArms valid declared (planned field declared)

/-- No two fields of a message have a key in common. -/
theorem nodup_keys {registry : Registry} {type : MessageType} (valid : type.Valid registry) :
    (type.fields.flatMap fun field =>
      (FieldPlan.ofField registry type.name field).keys).Nodup := by
  refine List.nodup_flatMap.2 ⟨fun field _ => FieldPlan.nodup_keys _, ?_⟩
  refine valid.tags.imp fun apart key held held' => apart ?_
  exact (FieldPlan.mem_keys_iff.1 held).1.symm.trans (FieldPlan.mem_keys_iff.1 held').1

section Accepted

variable {schema : Schema} {type : MessageType}

/-- The arms of a message of an accepted schema. -/
theorem map_key_decoderArms_of_accepted (accepted : schema.Accepted) (held : type ∈ schema.types)
    (names : Names) :
    (decoderArms (.of (.ofSchema schema) names type)).map Arm.key =
      type.fields.flatMap fun field =>
        (FieldPlan.ofField (.ofSchema schema) type.name field).keys :=
  map_key_decoderArms (accepted.valid held) (fun field declared =>
    (CodecSet.reader?_ofType_iff accepted held).2 ⟨field, declared, rfl, rfl⟩) names

/-- There is an arm for a key exactly if the plan of its tag accepts its wire type. -/
theorem mem_map_key_decoderArms_iff (accepted : schema.Accepted) (held : type ∈ schema.types)
    (names : Names) {key : Key} :
    key ∈ (decoderArms (.of (.ofSchema schema) names type)).map Arm.key ↔
      ∃ plan, (MessageCodec.ofType (.ofSchema schema) type).reader? key.tag = some plan ∧
        plan.accepts key.wireType := by
  rw [map_key_decoderArms_of_accepted accepted held, List.mem_flatMap]
  constructor
  · rintro ⟨field, declared, among⟩
    obtain ⟨same, accepts⟩ := FieldPlan.mem_keys_iff.1 among
    exact ⟨_, (CodecSet.reader?_ofType_iff accepted held).2 ⟨field, declared, same.symm, rfl⟩,
      accepts⟩
  · rintro ⟨plan, planned, accepts⟩
    obtain ⟨field, declared, same, rfl⟩ := (CodecSet.reader?_ofType_iff accepted held).1 planned
    exact ⟨field, declared, FieldPlan.mem_keys_iff.2 ⟨same.symm, accepts⟩⟩

/-- Where a tag has a plan, there is an arm for a key exactly if the plan accepts its wire type. -/
theorem mem_map_key_iff_of_reader? (accepted : schema.Accepted) (held : type ∈ schema.types)
    (names : Names) {key : Key} {plan : FieldPlan}
    (planned : (MessageCodec.ofType (.ofSchema schema) type).reader? key.tag = some plan) :
    key ∈ (decoderArms (.of (.ofSchema schema) names type)).map Arm.key ↔
      plan.accepts key.wireType := by
  rw [mem_map_key_decoderArms_iff accepted held, planned]
  simp

end Accepted

/-- The arms of an emitted method that reads a message of an accepted schema, which start with the
tag and the wire type that they are for, are for different keys. These are the tags of the declared
fields, each with the wire type of one value and with that of runs if the field takes them. A record
of a declared field is refused for its wire type exactly if there is no arm for its key, whether its
value can be read or not. -/
theorem decoderArms_exact {schema : Schema} (accepted : schema.Accepted) (names : Names)
    {type : MessageType} (held : type ∈ schema.allMessages) :
    ∃ codec arms, (CodecSet.ofSchema schema).get? type.name = some codec ∧
      decoderArms ⟨type, codec, membersOf type, names⟩ = arms ∧
      (∀ arm ∈ arms, ∀ level, ∃ what more, arm.toSource.lines level = Source.indented level
        ("(" ++ toString arm.tag ++ ", " ++ wireTypePath arm.wireType ++ ") =>" ++ what) ::
          more) ∧
      (arms.map Arm.key).Nodup ∧
      (∀ key, key ∈ arms.map Arm.key ↔ ∃ plan, codec.reader? key.tag = some plan ∧
        (key.wireType = plan.form.singleWireType ∨
          plan.form.acceptsPacked ∧ key.wireType = .lengthDelimited)) ∧
      (∀ tag, (codec.reader? tag).isSome ↔ ∃ field ∈ type.fields, field.tag = tag) ∧
      (∀ set nested message plan (record : Record),
        codec.reader? record.key.tag = some plan → record.key.wireType = record.value.wireType →
        (∀ type slice, nested type slice ≠
          .error (CodecSet.misplaced codec plan record.offset record.key.wireType)) →
        (CodecSet.applyRecord set nested codec message record =
          .error (CodecSet.misplaced codec plan record.offset record.key.wireType) ↔
            record.key ∉ arms.map Arm.key)) ∧
      ∀ set plan offset (key : Key) error, codec.reader? key.tag = some plan →
        (CodecSet.breakError set codec (.value offset key error) =
          CodecSet.misplaced codec plan offset key.wireType ↔ key ∉ arms.map Arm.key) := by
  have declaring := Schema.mem_types_of_mem_allMessages held
  refine ⟨_, _, (CodecSet.get?_ofSchema_iff accepted).2 ⟨type, declaring, rfl, rfl⟩, rfl,
    fun arm _ level => arm.exists_lines_toSource level, ?_, fun key => ?_, fun tag => ?_, ?_, ?_⟩
  · exact (map_key_decoderArms_of_accepted accepted declaring names).symm ▸
      nodup_keys (accepted.valid declaring)
  · simp only [← FieldPlan.accepts_iff]
    exact mem_map_key_decoderArms_iff accepted declaring names
  · rw [Option.isSome_iff_exists]
    constructor
    · rintro ⟨plan, planned⟩
      obtain ⟨field, declared, same, -⟩ :=
        (CodecSet.reader?_ofType_iff accepted declaring).1 planned
      exact ⟨field, declared, same⟩
    · rintro ⟨field, declared, same⟩
      exact ⟨_, (CodecSet.reader?_ofType_iff accepted declaring).2 ⟨field, declared, same, rfl⟩⟩
  · intro set nested message plan record planned typed inside
    have arm := mem_map_key_iff_of_reader? accepted declaring names planned
    rw [CodecSet.applyRecord, planned]
    exact (CodecSet.applyField_refuses_iff typed inside).trans (not_congr arm).symm
  · intro set plan offset key error planned
    have arm := mem_map_key_iff_of_reader? accepted declaring names planned
    exact (CodecSet.breakError_refuses_iff planned).trans (not_congr arm).symm

/-- The marks of a node are read one by one and in runs. Its number is not read from 32 bits, and a
record with it in 32 bits is refused. -/
theorem decoderArms_exact_tree : Schema.tree.Accepted ∧ ∃ type ∈ Schema.tree.allMessages,
    ∃ codec arms, (CodecSet.ofSchema .tree).get? type.name = some codec ∧
      decoderArms ⟨type, codec, membersOf type, .of (.ofSchema .tree) ""⟩ = arms ∧
      (⟨3, .varint⟩ : Key) ∈ arms.map Arm.key ∧
      (⟨3, .lengthDelimited⟩ : Key) ∈ arms.map Arm.key ∧
      (⟨1, .fixed32⟩ : Key) ∉ arms.map Arm.key := by
  obtain ⟨codec, arms, found, made, -, -, taken, -, refused, -⟩ := decoderArms_exact
    Schema.accepted_tree (.of (.ofSchema .tree) "") List.mem_cons_self
  obtain rfl : MessageCodec.ofType (.ofSchema .tree) _ = codec :=
    Option.some.inj (((CodecSet.get?_ofSchema_iff Schema.accepted_tree).2
      ⟨_, List.mem_cons_self, rfl, rfl⟩).symm.trans found)
  refine ⟨Schema.accepted_tree, _, List.mem_cons_self, _, arms, found, made,
    (taken _).2 ⟨_, rfl, .inl rfl⟩, (taken _).2 ⟨_, rfl, .inr ⟨rfl, rfl⟩⟩, ?_⟩
  exact (refused {} (fun _ _ => .ok (.new "Node")) (.new "Node") _
    ⟨0, ⟨1, .fixed32⟩, .word .fixed32 7, []⟩ rfl rfl fun _ _ => nofun).1 rfl

end Emission

end Protobuf
