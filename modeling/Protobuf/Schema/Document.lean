import Protobuf.Json.Document
import Protobuf.Schema.Basic

/-! # Schemas as JSON

The JSON form of a schema, with every type fully resolved. -/

namespace Protobuf

/-- A type as its words. -/
def FieldType.toJson (type : FieldType) : Json :=
  .text type.text

/-- A default as the literal it is. -/
def DefaultValue.toJson : DefaultValue → Json
  | .bool value => .boolean value
  | .integer value => .integer value
  | .float value => .double value
  | .text value => .text value

/-- The JSON form of a field. -/
def Field.toJson (field : Field) : Json :=
  .object [("name", .text field.name), ("tag", .nat field.tag),
    ("field_type", field.type.toJson), ("cardinality", .text field.cardinality.name),
    ("oneof_group", .orNull .text field.oneof),
    ("default_value", .orNull DefaultValue.toJson field.default),
    ("deprecated", .boolean field.deprecated)]

/-- The JSON form of reserved names and numbers. -/
def Reserved.toJson (reserved : Reserved) : Json :=
  .object [("names", .array (reserved.names.keys.map .text)),
    ("ranges", .array (reserved.ranges.map fun range =>
      .object [("start", .integer range.first), ("end", .integer range.last)]))]

/-- The JSON form of an enum. -/
def EnumType.toJson (type : EnumType) : Json :=
  .object [("name", .text type.name),
    ("values", .array (type.values.map fun value =>
      .object [("name", .text value.name), ("number", .integer value.number.toInt)])),
    ("allow_alias", .boolean type.allowAlias), ("reserved", type.reserved.toJson)]

/-- The JSON form of oneof groups. -/
def OneofTable.toJson (groups : OneofTable) : Json :=
  .object (groups.entries.map fun (group, tags) => (group, .array (tags.keys.map .nat)))

namespace MessageType

mutual

/-- The JSON form of a message. -/
def toJson : MessageType → Json
  | ⟨name, fields, enums, nested, oneofs, reserved⟩ =>
    .object [("name", .text name), ("fields", .array (fields.map Field.toJson)),
      ("nested_enums", .array (enums.map EnumType.toJson)),
      ("nested_messages", .array (toJsonAll nested)),
      ("oneof_groups", OneofTable.toJson oneofs), ("reserved", reserved.toJson)]

/-- The JSON forms of messages. -/
def toJsonAll : List MessageType → List Json
  | [] => []
  | type :: rest => type.toJson :: toJsonAll rest

end

end MessageType

/-- The JSON form of a schema. -/
def Schema.toJson (schema : Schema) : Json :=
  .object [("package", .orNull .text schema.package),
    ("messages", .array (schema.messages.map MessageType.toJson)),
    ("enums", .array (schema.enums.map EnumType.toJson))]

end Protobuf
