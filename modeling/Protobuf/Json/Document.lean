import Protobuf.Number.Layout
import Protobuf.Text.Quote

/-! # JSON documents

Documents as they are written: on one line without blanks, or spread over lines with two blanks
for each level. Members of an object keep the order they are given in. -/

namespace Protobuf

open Number Text

/-- A JSON document. Numbers keep their width, since it decides their digits. -/
inductive Json
  | null
  | boolean (value : Bool)
  | integer (value : Int)
  | float (value : Binary32)
  | double (value : Binary64)
  | text (value : String)
  | array (items : List Json)
  | object (members : List (String × Json))
deriving Repr

namespace Json

instance : Inhabited Json := ⟨.null⟩

mutual

/-- The document on one line. -/
def compact : Json → String
  | .null => "null"
  | .boolean value => if value then "true" else "false"
  | .integer value => toString value
  | .float value => Layout.json32.text32 value
  | .double value => Layout.json64.text64 value
  | .text value => Quote.json value
  | .array items => "[" ++ ",".intercalate (compactItems items) ++ "]"
  | .object members => "\x7b" ++ ",".intercalate (compactMembers members) ++ "\x7d"

/-- Each of the items on one line. -/
def compactItems : List Json → List String
  | [] => []
  | item :: rest => item.compact :: compactItems rest

/-- Each of the members on one line. -/
def compactMembers : List (String × Json) → List String
  | [] => []
  | (name, value) :: rest => (Quote.json name ++ ":" ++ value.compact) :: compactMembers rest

end

/-- The start of a line at a level. -/
def indent (level : Nat) : String :=
  String.ofList ('\n' :: List.replicate (2 * level) ' ')

/-- Parts between brackets, each on a line of its own; the brackets alone when there are none. -/
def bracket (opening closing : String) (level : Nat) (parts : List String) : String :=
  if parts.isEmpty then opening ++ closing
  else
    opening ++ indent (level + 1) ++ ("," ++ indent (level + 1)).intercalate parts ++
      indent level ++ closing

mutual

/-- The document over several lines, from a level on. -/
def prettyAt (level : Nat) : Json → String
  | .null => "null"
  | .boolean value => if value then "true" else "false"
  | .integer value => toString value
  | .float value => Layout.json32.text32 value
  | .double value => Layout.json64.text64 value
  | .text value => Quote.json value
  | .array items => bracket "[" "]" level (prettyItems (level + 1) items)
  | .object members => bracket "\x7b" "\x7d" level (prettyMembers (level + 1) members)

/-- Each of the items, at a level. -/
def prettyItems (level : Nat) : List Json → List String
  | [] => []
  | item :: rest => item.prettyAt level :: prettyItems level rest

/-- Each of the members, at a level. -/
def prettyMembers (level : Nat) : List (String × Json) → List String
  | [] => []
  | (name, value) :: rest =>
    (Quote.json name ++ ": " ++ value.prettyAt level) :: prettyMembers level rest

end

/-- The document over several lines. -/
def pretty (document : Json) : String :=
  document.prettyAt 0

/-- A whole number that is not negative. -/
def nat (n : Nat) : Json := .integer n

/-- Bytes as an array of numbers. -/
def bytes (data : List UInt8) : Json :=
  .array (data.map fun b => .nat b.toNat)

/-- A value that may be absent, null when it is. -/
def orNull {α : Type} (write : α → Json) : Option α → Json
  | some value => write value
  | none => .null

end Json

end Protobuf
