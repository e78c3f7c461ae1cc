import Protobuf.Codec.Set
import Protobuf.Value.Document

/-! # Codecs as JSON

The JSON form of codecs: for each message the steps of writing in order, and the arms of reading by
ascending tag. -/

namespace Protobuf

namespace FieldForm

/-- How values of a form are written. -/
def writerJson : FieldForm → Json
  | .single scalar => .object [("kind", .text "scalar"), ("scalar", .text scalar.name)]
  | .repeated scalar => .object [("kind", .text "repeated_scalar"), ("scalar", .text scalar.name)]
  | .packed kind => .object [("kind", .text "packed"), ("scalar", .text kind.name)]
  | .message type => .object [("kind", .text "message"), ("type_name", .text type)]
  | .messages type => .object [("kind", .text "repeated_message"), ("type_name", .text type)]
  | .map entry => .object [("kind", .text "map"), ("entry", .text entry)]

/-- How values of a form are read. -/
def readerJson : FieldForm → Json
  | .single scalar => .object [("kind", .text "assign"), ("scalar", .text scalar.name)]
  | .repeated scalar => .object [("kind", .text "append"), ("scalar", .text scalar.name)]
  | .packed kind => .object [("kind", .text "append"), ("scalar", .text kind.name)]
  | .message type => .object [("kind", .text "merge_message"), ("type_name", .text type)]
  | .messages type => .object [("kind", .text "append_message"), ("type_name", .text type)]
  | .map entry => .object [("kind", .text "map_entry"), ("entry", .text entry)]

end FieldForm

/-- The JSON form of a presence. -/
def Presence.toJson : Presence → Json
  | .implicit => .text "implicit"
  | .explicit => .text "explicit"
  | .oneof group => .object [("oneof", .text group)]
  | .repeated => .text "repeated"

/-- A member that is there only if it has a value. -/
def memberIf {α : Type} (name : String) (write : α → Json) : Option α → List (String × Json)
  | some value => [(name, write value)]
  | none => []

namespace FieldPlan

/-- The JSON form of a step of writing. -/
def stepJson (plan : FieldPlan) : Json :=
  .object ([("field", .text plan.field), ("tag", .nat plan.tag),
    ("wire_type", .text plan.wireType.name), ("key", .bytes plan.key),
    ("presence", plan.presence.toJson), ("op", plan.form.writerJson)] ++
    memberIf "default" Value.toJson plan.default)

/-- The JSON form of an arm of reading. -/
def armJson (plan : FieldPlan) : Json :=
  .object ([("field", .text plan.field), ("tag", .nat plan.tag),
    ("wire_type", .text plan.form.singleWireType.name),
    ("accepts_packed", .boolean plan.form.acceptsPacked)] ++
    memberIf "oneof" .text plan.oneof ++ [("op", plan.form.readerJson)])

end FieldPlan

namespace MessageCodec

/-- The plans by which records are read, by ascending tag. -/
def readers (codec : MessageCodec) : List (Nat × FieldPlan) :=
  codec.fields.foldl (fun readers plan => Keyed.insert plan.tag plan readers) []

/-- The JSON form of a codec. -/
def toJson (codec : MessageCodec) : Json :=
  .object [("message", .text codec.message),
    ("encode", .object [("steps", .array (codec.fields.map (·.stepJson)))]),
    ("decode", .object [
      ("arms", .object (codec.readers.map fun (tag, plan) => (toString tag, plan.armJson))),
      ("oneofs", .object (codec.oneofs.entries.map fun (group, tags) =>
        (group, .array (tags.keys.map .nat))))])]

end MessageCodec

/-- The JSON form of codecs, by the names of their messages. -/
def CodecSet.toJson (set : CodecSet) : Json :=
  .object [("codecs", .object (set.codecs.entries.map fun (name, codec) => (name, codec.toJson)))]

end Protobuf
