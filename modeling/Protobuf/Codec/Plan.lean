import Protobuf.Codec.Scalar
import Protobuf.Schema.Registry

/-! # Codecs of messages

A codec says of each field of a message how its values stand in records. One description serves
both directions: what is written follows from it, and so does what is accepted. Fields are written
in the order of their declaration. -/

namespace Protobuf

open Wire

/-- How the values of a field stand in records. -/
inductive FieldForm
  /-- One value in a record. -/
  | single (scalar : Scalar)
  /-- A record for each value. -/
  | repeated (scalar : Scalar)
  /-- One record for all values. -/
  | packed (kind : Numeric)
  /-- An embedded message of a type. -/
  | message (type : String)
  /-- A record for each of several embedded messages. -/
  | messages (type : String)
  /-- A record for each entry of a map, as an embedded message of the entry type. -/
  | map (entry : String)
deriving DecidableEq, Repr

namespace FieldForm

/-- The form of a field of a message. -/
def ofField (message : String) (field : Field) : FieldForm :=
  match field.type, field.cardinality.isRepeated with
  | .map _ _, _ => .map (Name.join message (entryName field.name))
  | .message type, true => .messages type
  | .message type, false => .message type
  | .enum _, true =>
    if field.cardinality = .packed then .packed .enum else .repeated (.numeric .enum)
  | .enum _, false => .single (.numeric .enum)
  | .builtin type, false => .single (.ofBuiltin type)
  | .builtin type, true =>
    match Scalar.ofBuiltin type with
    | .numeric kind =>
      if field.cardinality = .packed then .packed kind else .repeated (.numeric kind)
    | scalar => .repeated scalar

/-- The wire type of a record with one value. -/
def singleWireType : FieldForm → WireType
  | .single scalar => scalar.wireType
  | .repeated scalar => scalar.wireType
  | .packed kind => kind.layout.wireType
  | .message _ => .lengthDelimited
  | .messages _ => .lengthDelimited
  | .map _ => .lengthDelimited

/-- The wire type of the records that are written. -/
def wireType : FieldForm → WireType
  | .packed _ => .lengthDelimited
  | form => form.singleWireType

/-- Whether a record may hold a run of packed values. -/
def acceptsPacked : FieldForm → Bool
  | .repeated scalar => scalar.isPackable
  | .packed _ => true
  | _ => false

/-- Whether there may be any number of values. -/
def isRepeated : FieldForm → Bool
  | .single _ => false
  | .message _ => false
  | _ => true

/-- What a field reads as while it is not set. -/
def zero : FieldForm → Value
  | .single scalar => scalar.zero
  | .message type => .message (.new type)
  | .map _ => .map []
  | _ => .list []

/-- The words for what a field holds. -/
def describe : FieldForm → String
  | .single scalar => scalar.name
  | .repeated scalar => "a list of " ++ scalar.name
  | .packed kind => "a list of " ++ kind.name
  | .message type => type
  | .messages type => "a list of " ++ type
  | .map _ => "a map"

end FieldForm

/-- When a field that is set is written. -/
inductive Presence
  /-- Unless its value is zero. -/
  | implicit
  /-- Always. -/
  | explicit
  /-- Always, and no other member of the group may be set. -/
  | oneof (group : String)
  /-- As often as it has values. -/
  | repeated
deriving DecidableEq, Repr

/-- How a field is read and written. -/
structure FieldPlan where
  field : String
  tag : Nat
  form : FieldForm
  oneof : Option String
  /-- Whether a single value is written even when it is zero. -/
  optional : Bool
  default : Option Value

namespace FieldPlan

/-- The plan of a field of a message. Defaults of enums are looked up in the registry; a default
that does not fit is left out. -/
def ofField (registry : Registry) (message : String) (field : Field) : FieldPlan :=
  { field := field.name
    tag := field.tag
    form := .ofField message field
    oneof := field.oneof
    optional := field.cardinality = .optional
    default := do
      let default ← field.default
      let scalar ← Scalar.ofType? field.type
      let values :=
        match field.type with
        | .enum name => ((registry.enum? name).map (·.values)).getD []
        | _ => []
      scalar.ofDefault? values default }

/-- When the field is written. -/
def presence (plan : FieldPlan) : Presence :=
  if plan.form.isRepeated then .repeated
  else
    match plan.oneof with
    | some group => .oneof group
    | none =>
      match plan.form with
      | .message _ => .explicit
      | _ => if plan.optional then .explicit else .implicit

/-- The wire type of the records that are written. -/
def wireType (plan : FieldPlan) : WireType :=
  plan.form.wireType

/-- The bytes in front of each record that is written. -/
def key (plan : FieldPlan) : List UInt8 :=
  Write.key ⟨plan.tag, plan.wireType⟩

/-- Whether records of a wire type are read. -/
def accepts (plan : FieldPlan) (wireType : WireType) : Bool :=
  wireType = plan.form.singleWireType ||
    (plan.form.acceptsPacked && wireType = .lengthDelimited)

end FieldPlan

/-- How messages of a type are read and written. -/
structure MessageCodec where
  message : String
  /-- The plans of the fields, in declared order. -/
  fields : List FieldPlan
  oneofs : OneofTable

namespace MessageCodec

/-- The codec of a message. -/
def ofType (registry : Registry) (type : MessageType) : MessageCodec :=
  ⟨type.name, type.fields.map (.ofField registry type.name), type.oneofs⟩

/-- The plan by which records with a tag are read: that of the last field with the tag. -/
def reader? (codec : MessageCodec) (tag : Nat) : Option FieldPlan :=
  codec.fields.reverse.find? (·.tag = tag)

/-- The plan by which a field is written: that of the first field with the tag. -/
def writer? (codec : MessageCodec) (tag : Nat) : Option FieldPlan :=
  codec.fields.find? (·.tag = tag)

/-- What a field reads as while it is not set: its default if it has one. -/
def default? (codec : MessageCodec) (tag : Nat) : Option Value :=
  (codec.writer? tag).map fun plan => plan.default.getD plan.form.zero

/-- The message without the other members of the group of a field. -/
def clearOthers (codec : MessageCodec) (plan : FieldPlan) (message : Message) : Message :=
  match plan.oneof.bind codec.oneofs.get? with
  | some tags => (tags.keys.filter (· ≠ plan.tag)).foldl .remove message
  | none => message

end MessageCodec

end Protobuf
