import Protobuf.Proofs.Codec.Place
import Protobuf.Proofs.Codec.Truncation

/-! # Records that are refused

A record of a declared field is refused for its wire type exactly if the plan of the field does not
accept it, whether its value could be read or not. Main statements: `applyRecord_refuses_iff` and
`breakError_refuses_iff`. -/

namespace Protobuf

open Wire

/-- A value is a payload exactly if it has the wire type of payloads. -/
theorem Wire.RawValue.isSome_payload?_iff {raw : RawValue} :
    raw.payload?.isSome ↔ raw.wireType = .lengthDelimited := by
  cases raw with
  | payload slice => exact iff_of_true rfl rfl
  | word layout n => cases layout <;> exact iff_of_false Bool.false_ne_true nofun

namespace Scalar

variable {scalar : Scalar} {raw : RawValue}

/-- The records that are read as a value of a kind are those of its wire type. -/
theorem isSome_read?_iff : (scalar.read? raw).isSome ↔ raw.wireType = scalar.wireType := by
  constructor
  · intro some
    obtain ⟨result, read⟩ := Option.isSome_iff_exists.1 some
    exact wireType_of_read? read
  · intro same
    cases scalar with
    | numeric kind =>
      cases raw with
      | word layout n =>
        obtain rfl : layout = kind.layout := Word.wireType_inj.1 same
        simp [read?, RawValue.word?]
      | payload slice => cases kind <;> cases same
    | string | bytes =>
      rw [read?, Option.isSome_map]
      exact RawValue.isSome_payload?_iff.2 same

/-- The records that are read as values of a kind are those of its wire type, and runs of it. -/
theorem isSome_readAll?_iff : (scalar.readAll? raw).isSome ↔
    raw.wireType = scalar.wireType ∨ scalar.isPackable ∧ raw.wireType = .lengthDelimited := by
  constructor
  · intro some
    obtain ⟨result, read⟩ := Option.isSome_iff_exists.1 some
    exact wireType_of_readAll? read
  · intro fits
    unfold readAll?
    split
    · rfl
    · rename_i other
      rw [Option.isSome_map, isSome_read?_iff]
      refine fits.resolve_right fun ⟨packable, run⟩ => ?_
      obtain ⟨slice, payload⟩ :=
        Option.isSome_iff_exists.1 (RawValue.isSome_payload?_iff.2 run)
      cases raw with
      | word => cases payload
      | payload slice =>
        cases scalar with
        | numeric kind => exact other kind slice rfl rfl
        | string | bytes => cases packable

end Scalar

/-- The wire types that a plan accepts are that of one value, and that of runs if it takes them. -/
theorem FieldPlan.accepts_iff {plan : FieldPlan} {wireType : WireType} : plan.accepts wireType ↔
    wireType = plan.form.singleWireType ∨
      plan.form.acceptsPacked ∧ wireType = .lengthDelimited := by
  simp [accepts]

namespace CodecSet

variable {set : CodecSet} {nested : String → Slice → Except CodecError Message}
  {codec : MessageCodec} {plan : FieldPlan} {message : Message} {record : Record}

/-- A reading is refused exactly if there is none, whatever comes after it. -/
theorem bind_expect_refuses_iff {α β : Type} {reading : Option (Except Error α)}
    {next : α → Except CodecError β}
    (after : ∀ a, next a ≠ .error (misplaced codec plan record.offset record.key.wireType)) :
    (expect codec plan record reading >>= next) =
      .error (misplaced codec plan record.offset record.key.wireType) ↔ ¬reading.isSome := by
  rcases reading with _ | _ | a
  · exact iff_of_true rfl Bool.false_ne_true
  · exact iff_of_false (fun same => by cases same) fun none => none rfl
  · exact iff_of_false (after a) fun none => none rfl

/-- A run that only fails where a codec is missing refuses no record. -/
theorem LacksCodec.ne_refusal {α : Type} {run : Except CodecError α} (lacks : LacksCodec run) :
    run ≠ .error (misplaced codec plan record.offset record.key.wireType) := by
  intro failed
  obtain ⟨name, same⟩ := lacks _ failed
  cases same

theorem ok_ne_error {α : Type} (a : α) (error : CodecError) : Except.ok a ≠ .error error :=
  nofun

theorem bind_ne_error {α β : Type} {first : Except CodecError α} {next : α → Except CodecError β}
    {error : CodecError} (before : first ≠ .error error) (after : ∀ a, next a ≠ .error error) :
    first >>= next ≠ .error error := by
  intro failed
  rcases bind_eq_error_iff.1 failed with failed | ⟨a, -, failed⟩
  · exact before failed
  · exact after a failed

/-- A record of a declared field is refused exactly if its plan does not accept the wire type,
unless an embedded message is refused like this. -/
theorem applyField_refuses_iff (typed : record.key.wireType = record.value.wireType)
    (inside : ∀ type slice, nested type slice ≠
      .error (misplaced codec plan record.offset record.key.wireType)) :
    applyField set nested codec plan message record =
      .error (misplaced codec plan record.offset record.key.wireType) ↔
        ¬plan.accepts record.key.wireType := by
  -- Embedded messages are read from payloads of any content.
  have nested_iff {form : FieldForm} (single : form.singleWireType = .lengthDelimited)
      (unpacked : form.acceptsPacked = false) :
      ¬(record.value.payload?.map (Except.ok : Slice → Except Error Slice)).isSome ↔
        ¬(record.key.wireType = form.singleWireType ∨
          form.acceptsPacked ∧ record.key.wireType = .lengthDelimited) := by
    rw [Option.isSome_map, RawValue.isSome_payload?_iff, typed, single, unpacked]
    simp
  rw [FieldPlan.accepts_iff]
  unfold applyField
  cases plan.form with
  | single scalar =>
    refine (bind_expect_refuses_iff fun value => ok_ne_error _ _).trans ?_
    rw [Scalar.isSome_read?_iff]
    simp [FieldForm.singleWireType, FieldForm.acceptsPacked, typed]
  | repeated scalar =>
    refine (bind_expect_refuses_iff fun value => ok_ne_error _ _).trans ?_
    rw [Scalar.isSome_readAll?_iff]
    simp [FieldForm.singleWireType, FieldForm.acceptsPacked, typed]
  | packed kind =>
    refine (bind_expect_refuses_iff fun value => ok_ne_error _ _).trans ?_
    rw [Scalar.isSome_readAll?_iff]
    simp [FieldForm.singleWireType, FieldForm.acceptsPacked, typed, Scalar.wireType,
      Scalar.isPackable]
  | message type =>
    refine (bind_expect_refuses_iff fun slice => ?_).trans (nested_iff rfl rfl)
    refine bind_ne_error (inside type slice) fun decoded => ?_
    dsimp only
    split
    · exact bind_ne_error (lacksCodec_merge _ _).ne_refusal fun _ => ok_ne_error _ _
    · exact ok_ne_error _ _
  | messages type =>
    refine (bind_expect_refuses_iff fun slice => ?_).trans (nested_iff rfl rfl)
    exact bind_ne_error (inside type slice) fun decoded => ok_ne_error _ _
  | map entry =>
    refine (bind_expect_refuses_iff fun slice => ?_).trans (nested_iff rfl rfl)
    refine bind_ne_error (lacksCodec_codec _ _).ne_refusal fun entryCodec => ?_
    refine bind_ne_error (inside entry slice) fun decoded => ?_
    split
    · exact ok_ne_error _ _
    · intro same
      cases same

/-- A record whose value cannot be read is refused for its wire type exactly if its plan does not
accept this. -/
theorem breakError_refuses_iff {offset : Nat} {key : Key} {error : Error}
    (planned : codec.reader? key.tag = some plan) :
    breakError set codec (.value offset key error) = misplaced codec plan offset key.wireType ↔
      ¬plan.accepts key.wireType := by
  simp only [breakError, planned]
  split
  · rename_i accepted
    refine iff_of_false (fun same => ?_) (not_not_intro accepted)
    split at same
    · split at same <;> cases same
    · cases same
  · rename_i refused
    exact iff_of_true rfl refused

end CodecSet

end Protobuf
