import Protobuf.Number.Layout
import Protobuf.Text.Quote

/-! # Faults of JSON input

Why a JSON text is not taken: it ends early, it is not JSON, or it is JSON that says something
else than was asked for. -/

namespace Protobuf.Json

open Number Text

/-- What stands where something else was asked for. -/
inductive Found
  | null
  | boolean (value : Bool)
  | integer (value : Int)
  | double (value : Binary64)
  | text (value : String)
  | sequence
  | map
deriving DecidableEq, Repr

/-- The words for what was found. -/
def Found.describe : Found → String
  | .null => "null"
  | .boolean value => "boolean \x60" ++ (if value then "true" else "false") ++ "\x60"
  | .integer value => "integer \x60" ++ toString value ++ "\x60"
  | .double value => "floating point \x60" ++ Layout.json64.text64 value ++ "\x60"
  | .text value => "string " ++ Quote.literal value
  | .sequence => "sequence"
  | .map => "map"

/-- How well-formed JSON can differ from what was asked for. -/
inductive Mismatch
  | invalidType (found : Found) (expected : String)
  | invalidValue (found : Found) (expected : String)
  | invalidLength (length : Nat) (expected : String)
  | unknownField (name : String) (allowed : List String)
  | unknownVariant (name : String) (allowed : List String)
  | missingField (name : String)
  | duplicateField (name : String)
  | noVariant (expected : String)
deriving DecidableEq, Repr

/-- Names in back quotes. -/
def ticked (name : String) : String :=
  "\x60" ++ name ++ "\x60"

/-- The words for the names that may stand somewhere. -/
def oneOf : List String → String
  | [] => "there are no fields"
  | [only] => "expected " ++ ticked only
  | [first, second] => "expected " ++ ticked first ++ " or " ++ ticked second
  | names => "expected one of " ++ ", ".intercalate (names.map ticked)

/-- The words for a difference. -/
def Mismatch.message : Mismatch → String
  | .invalidType found expected =>
    "invalid type: " ++ found.describe ++ ", expected " ++ expected
  | .invalidValue found expected =>
    "invalid value: " ++ found.describe ++ ", expected " ++ expected
  | .invalidLength length expected =>
    "invalid length " ++ toString length ++ ", expected " ++ expected
  | .unknownField name allowed => "unknown field " ++ ticked name ++ ", " ++ oneOf allowed
  | .unknownVariant name allowed => "unknown variant " ++ ticked name ++ ", " ++ oneOf allowed
  | .missingField name => "missing field " ++ ticked name
  | .duplicateField name => "duplicate field " ++ ticked name
  | .noVariant expected => "data did not match any variant of " ++ expected

/-- Why a JSON text is not taken. -/
inductive Fault
  /-- The text ends where more was asked for. -/
  | ended
  /-- The text is not JSON, or nests too deep. -/
  | malformed
  /-- The text is JSON, but not what was asked for. -/
  | mismatch (cause : Mismatch)
deriving DecidableEq, Repr

end Protobuf.Json
