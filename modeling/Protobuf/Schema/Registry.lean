import Protobuf.Schema.Basic

/-! # Registries

The messages and enums of a schema by full name. Of two declarations with one name, the first is
found. -/

namespace Protobuf

/-- Types by full name. -/
structure Registry where
  messages : Table String MessageType := .empty
  enums : Table String EnumType := .empty

namespace Registry

/-- Types by full name, the first with a name taken. -/
def ofTypes (messages : List MessageType) (enums : List EnumType) : Registry :=
  { messages := messages.foldl (fun table type => table.insertNew type.name type) .empty
    enums := enums.foldl (fun table type => table.insertNew type.name type) .empty }

/-- The types of a schema. -/
def ofSchema (schema : Schema) : Registry :=
  ofTypes schema.allMessages schema.allEnums

/-- A message and the types nested in it. -/
def ofMessage (type : MessageType) : Registry :=
  ofTypes type.withNested type.enumsWithin

/-- The message with a full name. -/
def message? (registry : Registry) (name : String) : Option MessageType :=
  registry.messages.get? name

/-- The enum with a full name. -/
def enum? (registry : Registry) (name : String) : Option EnumType :=
  registry.enums.get? name

/-- Whether a type refers to a type of its kind that is there. -/
def resolves (registry : Registry) : FieldType → Bool
  | .enum name => (registry.enum? name).isSome
  | .message name => (registry.message? name).isSome
  | _ => true

end Registry

end Protobuf
