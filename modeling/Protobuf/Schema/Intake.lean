import Protobuf.Json.Reader
import Protobuf.Schema.Declaration

/-! # Declarations from JSON

How each kind of declaration is written in JSON. Members with other names are refused; all but
names, numbers and types may be left out. -/

namespace Protobuf.Intake

open Json Number

/-- A slot for a text that must be there. -/
def required {σ : Type} (name : String) (store : String → σ → σ) : Slot σ :=
  Slot.of name (fun _ => Reader.string) store true

/-- A range: its two ends in an array. -/
def range (levels : Nat) : Reader NumberRange := do
  let expected := "a tuple of size 2"
  let number := Reader.integer .signed64 "i64"
  let first ← Reader.next
  if first = '[' then
    Reader.openLevel levels
    unless ← Reader.moreElements true do Reader.mismatch (.invalidLength 0 expected)
    let start ← number
    unless ← Reader.moreElements false do Reader.mismatch (.invalidLength 1 expected)
    let finish ← number
    Reader.endArray
    return ⟨start, finish⟩
  else Reader.unexpected first expected

/-- Reserved names and numbers. -/
def reserved : Shape ReservedDeclaration where
  name := "ReservedDeclaration"
  blank := {}
  slots := [
    Slot.of "names" (Reader.array · fun _ => Reader.string)
      fun names declaration => { declaration with names := names },
    Slot.of "numbers" (Reader.array · fun _ => Reader.integer .signed64 "i64")
      fun numbers declaration => { declaration with numbers := numbers },
    Slot.of "ranges" (Reader.array · range)
      fun ranges declaration => { declaration with ranges := ranges }]

/-- A value of an enum. -/
def enumValue : Shape EnumValueDeclaration where
  name := "EnumValueDeclaration"
  blank := {}
  slots := [
    required "name" fun name declaration => { declaration with name := name },
    Slot.of "number" (fun _ => Reader.integer .signed32 "i32")
      (fun number declaration => { declaration with number := .ofInt number }) true]

/-- An enum. -/
def enum : Shape EnumDeclaration where
  name := "EnumDeclaration"
  blank := {}
  slots := [
    required "name" fun name declaration => { declaration with name := name },
    Slot.of "values" (Reader.array · enumValue.read)
      fun values declaration => { declaration with values := values },
    Slot.of "allow_alias" (fun _ => Reader.boolean)
      fun allowAlias declaration => { declaration with allowAlias := allowAlias },
    Slot.of "reserved" reserved.read
      fun reserved declaration => { declaration with reserved := reserved }]

/-- A default: the literal decides its kind. -/
def default (levels : Nat) : Reader DefaultValue := do
  match ← Reader.plain levels with
  | .boolean value => return .bool value
  | .number (.integer value) => return .integer value
  | .number (.double value) => return .float value
  | .text value => return .text value
  | .other => Reader.mismatch (.noVariant "untagged enum DefaultValue")

/-- A field. -/
def field : Shape FieldDeclaration where
  name := "FieldDeclaration"
  blank := {}
  slots := [
    required "name" fun name declaration => { declaration with name := name },
    Slot.of "number" (fun _ => Reader.integer .unsigned32 "u32")
      (fun number declaration => { declaration with number := number.toNat }) true,
    required "type" fun type declaration => { declaration with type := type },
    Slot.of "label" (Reader.variant · (Cardinality.all.map fun label => (label.name, label)))
      fun label declaration => { declaration with label := label },
    Slot.of "oneof" (fun _ => Reader.optional Reader.string)
      fun oneof declaration => { declaration with oneof := oneof },
    Slot.of "default" (fun levels => Reader.optional (default levels))
      fun default declaration => { declaration with default := default },
    Slot.of "deprecated" (fun _ => Reader.boolean)
      fun deprecated declaration => { declaration with deprecated := deprecated }]

/-- A message, given how the messages nested in it are read. -/
def messageOver (nested : Reader MessageDeclaration) : Shape MessageDeclaration where
  name := "MessageDeclaration"
  blank := {}
  slots := [
    required "name" fun name declaration => { declaration with name := name },
    Slot.of "fields" (Reader.array · field.read)
      fun fields declaration => { declaration with fields := fields },
    Slot.of "messages" (Reader.array · fun _ => nested)
      fun messages declaration => { declaration with messages := messages },
    Slot.of "enums" (Reader.array · enum.read)
      fun enums declaration => { declaration with enums := enums },
    Slot.of "oneofs" (Reader.array · fun _ => Reader.string)
      fun oneofs declaration => { declaration with oneofs := oneofs },
    Slot.of "reserved" reserved.read
      fun reserved declaration => { declaration with reserved := reserved }]

/-- A message. A nested one stands in an object and an array, so it has two levels less. -/
def message : Nat → Reader MessageDeclaration
  | 0 => (messageOver (throw .malformed)).read 0
  | 1 => (messageOver (throw .malformed)).read 1
  | levels + 2 => (messageOver (message levels)).read (levels + 2)

/-- A file. -/
def file : Shape FileDeclaration where
  name := "FileDeclaration"
  blank := {}
  slots := [
    Slot.of "package" (fun _ => Reader.optional Reader.string)
      fun package declaration => { declaration with package := package },
    Slot.of "messages" (Reader.array · message)
      fun messages declaration => { declaration with messages := messages },
    Slot.of "enums" (Reader.array · enum.read)
      fun enums declaration => { declaration with enums := enums }]

end Protobuf.Intake

namespace Protobuf

/-- Read a file of declarations from JSON. -/
def FileDeclaration.ofJson (text : String) : Except Json.Fault FileDeclaration :=
  (Intake.file.read Json.Reader.maxLevels).run text

end Protobuf
