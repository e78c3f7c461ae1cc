import Protobuf.Schema.Declaration
import Protobuf.Schema.Reference

/-! # Schemas from declarations

Every declared name is collected first, so that types can be referred to before they are declared.
Then each declaration is turned into its type. Nothing but an unknown type token fails here; the
other rules are left to validation, which reports every violation. -/

namespace Protobuf

open Text

/-- A field whose type token stands for no type. -/
structure UnsupportedField where
  scope : String
  field : String
  token : String
deriving DecidableEq, Repr

/-- The words for a field whose type token stands for no type. -/
def UnsupportedField.message (error : UnsupportedField) : String :=
  "field " ++ Quote.json error.field ++ " of " ++ Quote.json error.scope ++
    ": unsupported type " ++ Quote.json error.token

/-- The names with those of enums declared in a scope. -/
def KnownTypes.addEnums (known : KnownTypes) (scope : String) (enums : List EnumDeclaration) :
    KnownTypes :=
  enums.foldl (fun known declaration => known.insert (Name.join scope declaration.name) .enum) known

mutual

/-- The names with that of a message declared in a scope, after those of the types in it. The last
kind given to a name is the one it has. -/
def MessageDeclaration.addNames (scope : String) (known : KnownTypes) :
    MessageDeclaration → KnownTypes
  | ⟨name, _, messages, enums, _, _⟩ =>
    let name := Name.join scope name
    ((addAllNames name known messages).addEnums name enums).insert name .message

/-- The names with those of messages declared in a scope. -/
def MessageDeclaration.addAllNames (scope : String) (known : KnownTypes) :
    List MessageDeclaration → KnownTypes
  | [] => known
  | declaration :: rest => addAllNames scope (declaration.addNames scope known) rest

end

namespace FileDeclaration

/-- The scope of the outermost declarations. -/
def scope (file : FileDeclaration) : String :=
  file.package.getD ""

/-- The names of all declared types. -/
def knownTypes (file : FileDeclaration) : KnownTypes :=
  (MessageDeclaration.addAllNames file.scope .empty file.messages).addEnums file.scope file.enums

end FileDeclaration

/-- The reserved names and numbers of a declaration. -/
def ReservedDeclaration.build (declaration : ReservedDeclaration) : Reserved :=
  Reserved.of declaration.names declaration.numbers declaration.ranges

/-- The enum declared in a scope. -/
def EnumDeclaration.build (scope : String) (declaration : EnumDeclaration) : EnumType :=
  { name := Name.join scope declaration.name
    values := declaration.values.map fun value => ⟨value.name, value.number⟩
    allowAlias := declaration.allowAlias
    reserved := declaration.reserved.build }

/-- The field declared in a message. -/
def FieldDeclaration.build (known : KnownTypes) (scope : String) (declaration : FieldDeclaration) :
    Except UnsupportedField Field :=
  match resolve known scope declaration.type with
  | .error error => .error ⟨scope, declaration.name, error.token⟩
  | .ok type =>
    .ok ⟨declaration.name, declaration.number, type, declaration.label, declaration.oneof,
      declaration.default, declaration.deprecated⟩

mutual

/-- The message declared in a scope. -/
def MessageDeclaration.build (known : KnownTypes) (scope : String) :
    MessageDeclaration → Except UnsupportedField MessageType
  | ⟨name, fields, messages, enums, oneofs, reserved⟩ => do
    let name := Name.join scope name
    let fields ← fields.mapM (FieldDeclaration.build known name)
    let messages ← buildAll known name messages
    return ⟨name, fields, enums.map (EnumDeclaration.build name), messages,
      OneofTable.ofFields oneofs fields, reserved.build⟩

/-- The messages declared in a scope. -/
def MessageDeclaration.buildAll (known : KnownTypes) (scope : String) :
    List MessageDeclaration → Except UnsupportedField (List MessageType)
  | [] => .ok []
  | declaration :: rest => do
    let type ← declaration.build known scope
    let types ← buildAll known scope rest
    return type :: types

end

/-- The schema that a file declares. -/
def FileDeclaration.build (file : FileDeclaration) : Except UnsupportedField Schema := do
  let messages ← MessageDeclaration.buildAll file.knownTypes file.scope file.messages
  return ⟨file.package, messages, file.enums.map (EnumDeclaration.build file.scope)⟩

end Protobuf
