import Protobuf.Emission.Decoder
import Protobuf.Emission.Enum

/-! # The emitted module

A schema and its codecs as Rust text: enums and structures by ascending full name, each structure
with methods that write and read it. Nested types stand beside the others, under names that hold
their path. -/

namespace Protobuf.Emission

/-- A note in front of a deprecated item. -/
def deprecation (field : Field) : List Source :=
  if field.deprecated then [.line "#[deprecated]"] else []

/-- The enum that stands for a group of a message. -/
def emitGroup (scope : MessageScope) (group : String) : List Source :=
  let variants := (scope.type.fields.filter (·.oneof = some group)).flatMap fun field =>
    match (scope.members.get? field.tag).bind (·.variant) with
    | none => []
    | some variant =>
      let held :=
        match field.type with
        | .message name => "Box<" ++ scope.names.typeName name ++ ">"
        | type => elementType scope.names type
      deprecation field ++ [.line (variant ++ "(" ++ held ++ "),")]
  [.line "#[derive(Debug, Clone, PartialEq)]",
    block ("pub enum " ++ scope.names.oneofName scope.type.name group) variants,
    .blank]

/-- The fields of the structure of a message, given the groups that have one already. -/
def emitFields (scope : MessageScope) (groups : List String) : List Field → List Source
  | [] => [.line "pub unknown_fields: UnknownFields,"]
  | field :: rest =>
    match scope.members.get? field.tag, field.oneof with
    | none, _ => emitFields scope groups rest
    | some member, some group =>
      if groups.contains group then emitFields scope groups rest
      else
        .line ("pub " ++ member.identifier ++ ": Option<" ++
          scope.names.oneofName scope.type.name group ++ ">,") ::
          emitFields scope (group :: groups) rest
    | some member, none =>
      deprecation field ++
        .line ("pub " ++ member.identifier ++ ": " ++ memberType scope.names field ++ ",") ::
          emitFields scope groups rest

/-- The method that gives a field or its default. -/
def emitGetter (scope : MessageScope) (field : Field) : List Source :=
  let method := do
    let plan ← scope.codec.writer? field.tag
    let member ← scope.members.get? field.tag
    let getter ← member.getter
    let default ← plan.default
    let literal ← literal? default
    match plan.form with
    | .single scalar =>
      let (type, place) :=
        match scalar with
        | .numeric kind => (numericType kind, "self." ++ member.identifier)
        | .string => ("&str", "self." ++ member.identifier ++ ".as_deref()")
        | .bytes => ("&[u8]", "self." ++ member.identifier ++ ".as_deref()")
      return [block ("pub fn " ++ getter ++ "(&self) -> " ++ type)
          [.line (place ++ ".unwrap_or(" ++ literal ++ ")")],
        .blank]
    | _ => none
  method.getD []

/-- The method that reads records up to the end of a buffer. -/
def emitMerge (scope : MessageScope) : Source :=
  block "fn merge_at(&mut self, bb: &mut ByteBuffer, depth: usize) -> Result<(), WireError>"
    [block "if depth > MAX_DEPTH"
      [.block "return Err(WireError::LimitExceeded"
        [.line "offset: bb.offset(),",
          .line "what:   \"nesting depth\",",
          .line "limit:  MAX_DEPTH,",
          .line "actual: depth,"] ");"],
      block "while !bb.is_empty()"
        [.line "let start = bb.index();",
          .line "let key = bb.read_tag_key()?;",
          block "match (key.tag, key.wire_type)"
            ((decoderArms scope).map (·.toSource) ++
              [.line ("(tag, wire_type) => self.unknown_fields.push(" ++
                "UnknownField::read(bb, start, tag, wire_type, MAX_LENGTH)?),")])],
      .line "Ok(())"]

/-- The methods of the structure of a message. -/
def emitMethods (codecs : CodecSet) (scope : MessageScope) (name : String) : List Source :=
  scope.type.fields.flatMap (emitGetter scope) ++
    [block "pub fn encode(&self) -> Vec<u8>"
      [.line "let mut bb = ByteBufferMut::new();",
        .line "self.encode_to(&mut bb);",
        .line "bb.data()"],
      .blank,
      .line "/// Writes known fields in declared order, then unknown fields.",
      block "pub fn encode_to(&self, bb: &mut ByteBufferMut)"
        (emitEncoder codecs scope ++ [.line "self.unknown_fields.write_to(bb);"]),
      .blank,
      block ("pub fn decode(data: &[u8]) -> Result<" ++ name ++ ", WireError>")
        [.line "let mut bb = ByteBuffer::new(data);",
          .line (name ++ "::decode_from(&mut bb)")],
      .blank,
      block ("pub fn decode_from(bb: &mut ByteBuffer) -> Result<" ++ name ++ ", WireError>")
        [.line ("let mut message = " ++ name ++ "::default();"),
          .line "message.merge_at(bb, 0)?;",
          .line "Ok(message)"],
      .blank,
      .line "/// Reads fields until \x60bb\x60 is exhausted, merging them into \x60self\x60.",
      block "pub fn merge_from(&mut self, bb: &mut ByteBuffer) -> Result<(), WireError>"
        [.line "self.merge_at(bb, 0)"],
      .blank,
      emitMerge scope]

/-- The emitted form of a message: the enums of its groups, its structure and its methods. -/
def emitMessage (codecs : CodecSet) (names : Names) (type : MessageType) (codec : MessageCodec) :
    List Source :=
  let scope : MessageScope := ⟨type, codec, membersOf type, names⟩
  let name := names.typeName type.name
  (groupsOf type).flatMap (emitGroup scope) ++
    [.line "#[derive(Debug, Clone, PartialEq, Default)]",
      block ("pub struct " ++ name) (emitFields scope [] type.fields),
      .blank] ++
    (if type.fields.any (·.deprecated) then [.line "#[allow(deprecated)]"] else []) ++
    [block ("impl " ++ name) (emitMethods codecs scope name), .blank]

/-- The emitted form of a schema. -/
def emitSchema (schema : Schema) (codecs : CodecSet) : List Source :=
  let registry := Registry.ofSchema schema
  let names := Names.of registry (schema.package.getD "")
  let (opening, closing) :=
    match schema.package with
    | some package =>
      ([Source.line ("pub mod " ++ moduleIdentifier package ++ " \x7b"), .blank],
        [Source.line "\x7d"])
    | none => ([], [])
  [.line "// Generated by brine-proto. Do not edit.", .blank] ++ opening ++
    [.line ("use brine_proto_wire::\x7bByteBuffer, ByteBufferMut, UnknownField, UnknownFields, " ++
      "WireError, WireType\x7d;"),
      .blank,
      .line ("const MAX_LENGTH: usize = " ++ toString codecs.limits.maxLength ++ ";"),
      .line ("const MAX_DEPTH: usize = " ++ toString codecs.limits.maxDepth ++ ";"),
      .blank] ++
    registry.enums.values.flatMap (emitEnum names) ++
    registry.messages.values.flatMap (fun type =>
      match codecs.get? type.name with
      | some codec => emitMessage codecs names type codec
      | none => []) ++
    closing

/-- The text of a schema with its codecs. -/
def emit (schema : Schema) (codecs : CodecSet) : String :=
  Source.render (emitSchema schema codecs)

end Protobuf.Emission
