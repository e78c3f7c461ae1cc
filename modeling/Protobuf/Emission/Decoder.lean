import Protobuf.Emission.Encoder

/-! # Emitted reading

The arms that read the fields of a message, each for one tag and one wire type. -/

namespace Protobuf.Emission

open Wire

/-- What an arm does: take on the value of an expression, or run statements. -/
inductive ArmBody
  | expression (text : String)
  | statements (body : List Source)

/-- An arm: the records it is for, and what it does. -/
structure Arm where
  tag : Nat
  wireType : WireType
  body : ArmBody

/-- The emitted form of an arm. -/
def Arm.toSource (arm : Arm) : Source :=
  let pattern := "(" ++ toString arm.tag ++ ", " ++ wireTypePath arm.wireType ++ ") =>"
  match arm.body with
  | .expression text => .line (pattern ++ " " ++ text ++ ",")
  | .statements body => block pattern body

/-- The statement that opens a payload as a buffer. -/
def openBuffer (name : String) : Source :=
  .line ("let mut " ++ name ++ " = bb.sub_buffer(MAX_LENGTH)?;")

/-- Read a member of a group. -/
def readVariant (names : Names) (identifier path : String) (type : FieldType) : Option ArmBody :=
  match type with
  | .message name =>
    some (.statements
      [openBuffer "sub",
        block ("match &mut self." ++ identifier)
          [.line ("Some(" ++ path ++ "(value)) => value.merge_at(&mut sub, depth + 1)?,"),
            block "_ =>"
              [.line ("let mut value = Box::<" ++ names.typeName name ++ ">::default();"),
                .line "value.merge_at(&mut sub, depth + 1)?;",
                .line ("self." ++ identifier ++ " = Some(" ++ path ++ "(value));")]]])
  | type =>
    (Scalar.ofType? type).map fun scalar =>
      .expression
        ("self." ++ identifier ++ " = Some(" ++ path ++ "(" ++ readScalar "bb" scalar ++ "))")

/-- The line that reads one half of a map entry. -/
def readHalf (tag : String) (name : String) (scalar : Scalar) : Source :=
  .line ("(" ++ tag ++ ", " ++ wireTypePath scalar.wireType ++ ") => " ++ name ++ " = " ++
    readScalar "entry" scalar ++ ",")

/-- Read a map entry: a missing half is zero, and an entry takes the place of one with its key. -/
def readEntry (names : Names) (identifier : String) (key value : FieldType) : List Source :=
  let start (name : String) (type : FieldType) : Source :=
    .line ("let mut " ++ name ++ ": " ++ elementType names type ++ " = Default::default();")
  let keyArm := ((Scalar.ofType? key).map (readHalf "1" "key")).toList
  let valueArm :=
    match Scalar.ofType? value with
    | some scalar => readHalf "2" "value" scalar
    | none =>
      .line ("(2, WireType::LengthDelimited) => " ++
        "value.merge_at(&mut entry.sub_buffer(MAX_LENGTH)?, depth + 1)?,")
  [openBuffer "entry",
    start "key" key,
    start "value" value,
    block "while !entry.is_empty()"
      [.line "let field = entry.read_tag_key()?;",
        block "match (field.tag, field.wire_type)"
          (keyArm ++ [valueArm,
            block "(_, wire_type) =>" [.line "entry.skip_value(wire_type, MAX_LENGTH)?;"]])],
    block ("match self." ++ identifier ++ ".iter_mut().find(|(k, _)| *k == key)")
      [.line "Some(existing) => existing.1 = value,",
        .line ("None => self." ++ identifier ++ ".push((key, value)),")]]

/-- The arms that read a field that is no member of a group. -/
def readField (names : Names) (identifier : String) (field : Field) (plan : FieldPlan) : List Arm :=
  let single (body : ArmBody) : Arm := ⟨field.tag, plan.form.singleWireType, body⟩
  match field.type, Scalar.ofType? field.type with
  | .map key value, _ => [single (.statements (readEntry names identifier key value))]
  | .message name, _ =>
    if field.isRepeated then
      [single (.statements
        [openBuffer "sub",
          .line ("let mut value = " ++ names.typeName name ++ "::default();"),
          .line "value.merge_at(&mut sub, depth + 1)?;",
          .line ("self." ++ identifier ++ ".push(value);")])]
    else
      [single (.statements
        [openBuffer "sub",
          .line ("self." ++ identifier ++
            ".get_or_insert_with(Default::default).merge_at(&mut sub, depth + 1)?;")])]
  | _, some scalar =>
    if field.cardinality.isRepeated then
      single (.expression ("self." ++ identifier ++ ".push(" ++ readScalar "bb" scalar ++ ")")) ::
        if plan.form.acceptsPacked then
          [⟨field.tag, .lengthDelimited, .statements
            [openBuffer "packed",
              block "while !packed.is_empty()"
                [.line ("self." ++ identifier ++ ".push(" ++ readScalar "packed" scalar ++ ");")]]⟩]
        else []
    else if field.cardinality = .optional then
      [single (.expression ("self." ++ identifier ++ " = Some(" ++ readScalar "bb" scalar ++ ")"))]
    else [single (.expression ("self." ++ identifier ++ " = " ++ readScalar "bb" scalar))]
  | _, none => []

/-- The arms that read a field. -/
def readArms (scope : MessageScope) (field : Field) : List Arm :=
  match scope.codec.reader? field.tag, scope.members.get? field.tag with
  | some plan, some member =>
    match field.oneof, member.variant with
    | some group, some variant =>
      let path := scope.variantPath group variant
      ((readVariant scope.names member.identifier path field.type).map fun body =>
        (⟨field.tag, plan.form.singleWireType, body⟩ : Arm)).toList
    | _, _ => readField scope.names member.identifier field plan
  | _, _ => []

/-- The arms that read the fields of a message. -/
def decoderArms (scope : MessageScope) : List Arm :=
  scope.type.fields.flatMap (readArms scope)

end Protobuf.Emission
