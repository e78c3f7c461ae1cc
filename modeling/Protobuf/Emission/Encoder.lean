import Protobuf.Codec.Set
import Protobuf.Emission.Expression

/-! # Emitted writing

The statements that write the fields of a message, in the order of its codec. All members of a
group are written by one statement, where the first of them stands. -/

namespace Protobuf.Emission

/-- What the statements about a message are made from. -/
structure MessageScope where
  type : MessageType
  codec : MessageCodec
  members : Table Nat Member
  names : Names

namespace MessageScope

/-- The path of the variant of a member of a group. -/
def variantPath (scope : MessageScope) (group variant : String) : String :=
  scope.names.oneofName scope.type.name group ++ "::" ++ variant

end MessageScope

/-- The statement that writes an embedded message without its key. -/
def writeNested (buffer value : String) : Source :=
  .line (buffer ++ ".write_length_delimited(&" ++ value ++ ".encode());")

/-- The statement that writes the bytes of a buffer as a payload. -/
def writeBuffer (buffer : String) : Source :=
  .line ("bb.write_length_delimited(" ++ buffer ++ ".as_slice());")

/-- The head of a statement about a value that may be absent, and where the value is then. -/
def whenSet (identifier : String) : Scalar → String × Place
  | .numeric _ => ("if let Some(value) = self." ++ identifier, .held "value")
  | _ => ("if let Some(value) = &self." ++ identifier, .behind "value")

/-- The head of a statement about each of several values, and where the value is then. -/
def forEach (identifier : String) : Scalar → String × Place
  | .numeric _ => ("for &value in &self." ++ identifier, .held "value")
  | _ => ("for value in &self." ++ identifier, .behind "value")

/-- Write one half of a map entry, as a singular field of the entry message is written. -/
def writeHalf (entry : MessageCodec) (tag : Nat) (type : FieldType) (reference : String) :
    List Source :=
  match entry.writer? tag with
  | none => []
  | some plan =>
    match Scalar.ofType? type with
    | some scalar =>
      [block ("if " ++ isNonzero (.behind reference) scalar)
        [.writeKey "entry" plan.key, writeScalar "entry" scalar (.behind reference)]]
    | none => [.writeKey "entry" plan.key, writeNested "entry" reference]

/-- The arm that writes a member of a group. -/
def writeVariant (scope : MessageScope) (group : String) (field : Field) :
    Option (String × Source) := do
  let plan ← scope.codec.writer? field.tag
  let member ← scope.members.get? field.tag
  let variant ← member.variant
  let write :=
    match plan.form with
    | .single scalar => writeScalar "bb" scalar (.behind "value")
    | _ => writeNested "bb" "value"
  return (member.identifier,
    block ("Some(" ++ scope.variantPath group variant ++ "(value)) =>")
      [.writeKey "bb" plan.key, write])

/-- Write the member of a group that is set. -/
def writeGroup (scope : MessageScope) (group : String) : List Source :=
  let arms :=
    (scope.type.fields.filter (·.oneof = some group)).filterMap (writeVariant scope group)
  match arms with
  | [] => []
  | (identifier, _) :: _ =>
    [block ("match &self." ++ identifier) (arms.map (·.2) ++ [.line "None => \x7b\x7d"])]

/-- Write a field that is no member of a group. -/
def writeField (codecs : CodecSet) (plan : FieldPlan) (type : FieldType) (identifier : String) :
    List Source :=
  match plan.form, plan.presence with
  | .single scalar, .implicit =>
    let place : Place := .held ("self." ++ identifier)
    [block ("if " ++ isNonzero place scalar)
      [.writeKey "bb" plan.key, writeScalar "bb" scalar place]]
  | .single scalar, _ =>
    let (head, place) := whenSet identifier scalar
    [block head [.writeKey "bb" plan.key, writeScalar "bb" scalar place]]
  | .repeated scalar, _ =>
    let (head, place) := forEach identifier scalar
    [block head [.writeKey "bb" plan.key, writeScalar "bb" scalar place]]
  | .packed kind, _ =>
    [block ("if !self." ++ identifier ++ ".is_empty()")
      [.line "let mut packed = ByteBufferMut::new();",
        block ("for &value in &self." ++ identifier)
          [writeScalar "packed" (.numeric kind) (.held "value")],
        .writeKey "bb" plan.key,
        writeBuffer "packed"]]
  | .message _, _ =>
    [block ("if let Some(value) = &self." ++ identifier)
      [.writeKey "bb" plan.key, writeNested "bb" "value"]]
  | .messages _, _ =>
    [block ("for value in &self." ++ identifier)
      [.writeKey "bb" plan.key, writeNested "bb" "value"]]
  | .map entry, _ =>
    match type, codecs.get? entry with
    | .map key value, some entryCodec =>
      [block ("for (key, value) in &self." ++ identifier)
        (.line "let mut entry = ByteBufferMut::new();" ::
          (writeHalf entryCodec 1 key "key" ++ writeHalf entryCodec 2 value "value" ++
            [.writeKey "bb" plan.key, writeBuffer "entry"]))]
    | _, _ => []

/-- Write fields by their plans, given the groups written already. -/
def writeFields (codecs : CodecSet) (scope : MessageScope) (written : List String) :
    List FieldPlan → List Source
  | [] => []
  | plan :: rest =>
    match scope.type.fieldTagged? plan.tag, scope.members.get? plan.tag with
    | some field, some member =>
      match plan.presence with
      | .oneof group =>
        if written.contains group then writeFields codecs scope written rest
        else writeGroup scope group ++ writeFields codecs scope (group :: written) rest
      | _ =>
        writeField codecs plan field.type member.identifier ++
          writeFields codecs scope written rest
    | _, _ => writeFields codecs scope written rest

/-- The statements that write the fields of a message. -/
def emitEncoder (codecs : CodecSet) (scope : MessageScope) : List Source :=
  writeFields codecs scope [] scope.codec.fields

end Protobuf.Emission
