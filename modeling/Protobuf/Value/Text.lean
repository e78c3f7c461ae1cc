import Protobuf.Number.Layout
import Protobuf.Text.Quote
import Protobuf.Value.Basic

/-! # Values as text

A form of values to be read by people: numbers show their width where it is not the usual one, and
fields are shown by tag. -/

namespace Protobuf

open Number Text

namespace Value

/-- Parts with commas between them, in brackets. -/
def bracketed (opening closing : String) (parts : List String) : String :=
  opening ++ ", ".intercalate parts ++ closing

/-- The text of a message whose fields are texts. -/
def messageText (typeName : String) (fields : List String) (unknown : Nat) : String :=
  typeName ++ " \x7b" ++ ",".intercalate fields ++
    (if unknown = 0 then "" else " +" ++ toString unknown ++ " unknown") ++ " \x7d"

mutual

/-- The text of a value. -/
def text : Value → String
  | .bool value => if value then "true" else "false"
  | .int32 value => toString value.toInt
  | .int64 value => toString value.toInt ++ "i64"
  | .uint32 value => toString value.toNat ++ "u32"
  | .uint64 value => toString value.toNat ++ "u64"
  | .float value => Layout.source.text32 value ++ "f32"
  | .double value => Layout.source.text64 value
  | .string value => Quote.literal value
  | .bytes value => bracketed "b[" "]" (value.map fun b => toString b.toNat)
  | .enum number => "enum(" ++ toString number.toInt ++ ")"
  | .message ⟨type, fields, unknown⟩ => messageText type (fieldTexts fields) unknown.length
  | .list elements => bracketed "[" "]" (texts elements)
  | .map entries => bracketed "\x7b" "\x7d" (entryTexts entries)

/-- The texts of fields, each behind its tag. -/
def fieldTexts : List (Nat × Value) → List String
  | [] => []
  | (tag, value) :: rest => (" " ++ toString tag ++ ": " ++ value.text) :: fieldTexts rest

/-- The texts of elements. -/
def texts : List Value → List String
  | [] => []
  | value :: rest => value.text :: texts rest

/-- The texts of entries, each value behind its key. -/
def entryTexts : List (Value × Value) → List String
  | [] => []
  | (key, value) :: rest => (key.text ++ ": " ++ value.text) :: entryTexts rest

end

end Value

/-- The text of a message. -/
def Message.text (message : Message) : String :=
  (Value.message message).text

end Protobuf
