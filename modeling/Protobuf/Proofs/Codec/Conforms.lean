import Protobuf.Proofs.Codec.Scalar
import Protobuf.Proofs.Wire.Record

/-! # Messages that conform to codecs

A message conforms to the codecs of its type when each field that is set holds what the plan of the
field reads, no two members of a group are set, and each unknown record is one record of a tag that
the type does not have.

## Implementation notes

`Fits` and `Conforms` follow each other through values. `ConformsTo` is one level of it, for the
codec of the type, and is what proofs take apart. -/

namespace Protobuf

open Wire

namespace CodecSet

mutual

/-- A value is one that a field of a form holds. -/
inductive Fits (set : CodecSet) : FieldForm → Value → Prop
  | single {scalar : Scalar} {value : Value} (holds : scalar.Holds value) :
    Fits set (.single scalar) value
  | repeated {scalar : Scalar} {elements : List Value}
    (hold : ∀ element ∈ elements, scalar.Holds element) :
    Fits set (.repeated scalar) (.list elements)
  | packed {kind : Numeric} {elements : List Value}
    (hold : ∀ element ∈ elements, (Scalar.numeric kind).Holds element) :
    Fits set (.packed kind) (.list elements)
  | message {type : String} {message : Message} (named : message.typeName = type)
    (conforms : Conforms set message) : Fits set (.message type) (.message message)
  | messages {type : String} {elements : List Value}
    (fit : ∀ element ∈ elements, Fits set (.message type) element) :
    Fits set (.messages type) (.list elements)
  | map {entry : String} {key : Scalar} {value : FieldForm} {entries : List (Value × Value)}
    (found : set.get? entry = some (entryCodec entry key value))
    (keys : ∀ held ∈ entries, key.Holds held.1) (values : ∀ held ∈ entries, Fits set value held.2)
    (distinct : (entries.map (·.1)).Nodup) : Fits set (.map entry) (.map entries)

/-- A message is one of its type. -/
inductive Conforms (set : CodecSet) : Message → Prop
  | intro {message : Message} {codec : MessageCodec}
    (found : set.get? message.typeName = some codec) (ordered : message.Ordered)
    (declared : ∀ tag value, message.get? tag = some value → ∃ plan, codec.reader? tag = some plan)
    (fits : ∀ tag value plan, message.get? tag = some value → codec.reader? tag = some plan →
      Fits set plan.form value)
    (exclusive : ∀ tag other, codec.Rivals tag other → (message.get? tag).isSome →
      message.get? other = none)
    (unknown : ∀ field ∈ message.unknown, field.IsRecord ∧ codec.reader? field.tag = none) :
    Conforms set message

end

/-- A message has the fields, groups and unknown records that a codec allows. -/
structure ConformsTo (set : CodecSet) (codec : MessageCodec) (message : Message) : Prop where
  ordered : message.Ordered
  fits : ∀ tag value, message.get? tag = some value →
    ∃ plan, codec.reader? tag = some plan ∧ Fits set plan.form value
  exclusive : ∀ tag other, codec.Rivals tag other → (message.get? tag).isSome →
    message.get? other = none
  unknown : ∀ field ∈ message.unknown, field.IsRecord ∧ codec.reader? field.tag = none

variable {set : CodecSet} {codec : MessageCodec} {message : Message}

/-- What a field of a conforming message holds fits the plan of the field. -/
theorem ConformsTo.fits_plan {tag : Nat} {value : Value} {plan : FieldPlan}
    (conforms : ConformsTo set codec message) (held : message.get? tag = some value)
    (planned : codec.reader? tag = some plan) : Fits set plan.form value := by
  obtain ⟨plan', planned', fits⟩ := conforms.fits tag value held
  rwa [Option.some.inj (planned.symm.trans planned')]

/-- A message conforms exactly if it does to the codec of its type. -/
theorem conforms_iff (found : set.get? message.typeName = some codec) :
    Conforms set message ↔ ConformsTo set codec message := by
  constructor
  · intro conforms
    cases conforms with
    | intro found' ordered declared fits exclusive unknown =>
      obtain rfl := Option.some.inj (found.symm.trans found')
      refine ⟨ordered, fun tag value held => ?_, exclusive, unknown⟩
      obtain ⟨plan, planned⟩ := declared tag value held
      exact ⟨plan, planned, fits tag value plan held planned⟩
  · rintro ⟨ordered, fits, exclusive, unknown⟩
    refine .intro found ordered (fun tag value held => ?_) (fun tag value plan held planned => ?_)
      exclusive unknown
    · obtain ⟨plan, planned, -⟩ := fits tag value held
      exact ⟨plan, planned⟩
    · exact ConformsTo.fits_plan ⟨ordered, fits, exclusive, unknown⟩ held planned

theorem Conforms.exists_codec (conforms : Conforms set message) :
    ∃ codec, set.get? message.typeName = some codec ∧ ConformsTo set codec message := by
  cases conforms with
  | intro found ordered declared fits exclusive unknown =>
    exact ⟨_, found, (conforms_iff found).1 (.intro found ordered declared fits exclusive unknown)⟩

theorem Conforms.ordered (conforms : Conforms set message) : message.Ordered := by
  cases conforms with
  | intro found ordered => exact ordered

/-- A message with nothing set conforms. -/
theorem conformsTo_new (set : CodecSet) (codec : MessageCodec) (name : String) :
    ConformsTo set codec (.new name) where
  ordered := MessageOf.ordered_new name
  fits := fun tag value held => by cases held
  exclusive := fun tag other rivals held => rfl
  unknown := fun field held => absurd held List.not_mem_nil

/-- A message with one field set conforms if the value fits. -/
theorem conformsTo_set {name : String} {tag : Nat} {plan : FieldPlan} {value : Value}
    (planned : codec.reader? tag = some plan) (fits : Fits set plan.form value) :
    ConformsTo set codec ((MessageOf.new name).set tag value) where
  ordered := (MessageOf.ordered_new name).set tag value
  fits := fun wanted found held => by
    rw [MessageOf.get?_set] at held
    split at held
    · rename_i same
      cases held
      exact ⟨plan, same ▸ planned, fits⟩
    · cases held
  exclusive := fun first other rivals held => by
    rw [MessageOf.get?_set] at held ⊢
    split at held
    · rename_i same
      rw [if_neg fun same' => rivals.1 (same.trans same'.symm)]
      rfl
    · cases held
  unknown := fun field held => absurd held List.not_mem_nil

/-- A message with unknown records conforms if they are records of tags the type does not have. -/
theorem ConformsTo.addUnknown {unknown : List UnknownField}
    (conforms : ConformsTo set codec message)
    (records : ∀ field ∈ unknown, field.IsRecord ∧ codec.reader? field.tag = none) :
    ConformsTo set codec (message.addUnknown unknown) where
  ordered := conforms.ordered
  fits := conforms.fits
  exclusive := conforms.exclusive
  unknown := List.forall_mem_append.2 ⟨conforms.unknown, records⟩

end CodecSet

end Protobuf
