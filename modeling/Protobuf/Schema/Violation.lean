import Protobuf.Text.Quote

/-! # Violations

The rules that a schema can break. Messages and enums are named by full name. -/

namespace Protobuf

open Text

/-- A rule that a schema breaks. -/
inductive Violation
  | tagOutOfRange (message field : String) (tag : Nat)
  | tagSetAside (message field : String) (tag : Nat)
  | duplicateTag (message : String) (tag : Nat) (first second : String)
  | duplicateFieldName (message field : String)
  | reservedTag (message field : String) (tag : Nat)
  | reservedName (message field : String)
  | invalidName (scope name : String)
  | duplicateNestedName (scope name : String)
  | packedNotScalar (message field type : String)
  | invalidMapKey (message field type : String)
  | invalidMapValue (message field : String)
  | mapCardinality (message field : String)
  | emptyOneof (message group : String)
  | oneofUnknownMember (message group : String) (tag : Nat)
  | oneofConflict (message field : String)
  | oneofMemberCardinality (message field : String)
  | unresolvedType (message field type : String)
  | defaultRequiresPresence (message field : String)
  | defaultTypeMismatch (message field type : String)
  | emptyEnum (name : String)
  | enumFirstValueNotZero (name value : String) (number : Int)
  | duplicateEnumNumber (name : String) (number : Int) (first second : String)
  | duplicateEnumName (name value : String)
  | reservedEnumValue (name value : String)
  | unresolvableCycle (path : List String)
deriving DecidableEq, Repr

namespace Violation

/-- Whether messages nest each other without end, rather than one declaration being at fault. -/
def isCycle : Violation → Bool
  | .unresolvableCycle _ => true
  | _ => false

/-- The words for a field of a message. -/
def fieldOf (field message : String) : String :=
  "field " ++ Quote.json field ++ " of " ++ Quote.json message

/-- The words for a violation. -/
def message : Violation → String
  | .tagOutOfRange message field tag =>
    fieldOf field message ++ " uses tag " ++ toString tag ++ ", outside [1, 536870911]"
  | .tagSetAside message field tag =>
    fieldOf field message ++ " uses tag " ++ toString tag ++
      ", which lies in the implementation-reserved range [19000, 19999]"
  | .duplicateTag message tag first second =>
    "tag " ++ toString tag ++ " of " ++ Quote.json message ++ " is used by both " ++
      Quote.json first ++ " and " ++ Quote.json second
  | .duplicateFieldName message field =>
    "field name " ++ Quote.json field ++ " is used twice in " ++ Quote.json message
  | .reservedTag message field tag =>
    fieldOf field message ++ " uses reserved tag " ++ toString tag
  | .reservedName message field =>
    "field name " ++ Quote.json field ++ " is reserved in " ++ Quote.json message
  | .invalidName scope name =>
    Quote.json name ++ " is not a valid identifier in " ++ Quote.json scope
  | .duplicateNestedName scope name =>
    "name " ++ Quote.json name ++ " is declared twice in " ++ Quote.json scope
  | .packedNotScalar message field type =>
    fieldOf field message ++ " cannot be packed: " ++ type ++ " is not a numeric scalar or enum"
  | .invalidMapKey message field type =>
    "map " ++ fieldOf field message ++ " has key type " ++ type ++ ", which cannot key a map"
  | .invalidMapValue message field =>
    "map " ++ fieldOf field message ++ " has a map as its value type"
  | .mapCardinality message field => "map " ++ fieldOf field message ++ " must be singular"
  | .emptyOneof message group =>
    "oneof " ++ Quote.json group ++ " of " ++ Quote.json message ++ " has no members"
  | .oneofUnknownMember message group tag =>
    "oneof " ++ Quote.json group ++ " of " ++ Quote.json message ++ " lists tag " ++
      toString tag ++ ", which no field uses"
  | .oneofConflict message field =>
    fieldOf field message ++ " disagrees with the oneof table about its group"
  | .oneofMemberCardinality message field =>
    fieldOf field message ++ " is in a oneof but is not singular"
  | .unresolvedType message field type =>
    fieldOf field message ++ " refers to unknown type " ++ Quote.json type
  | .defaultRequiresPresence message field =>
    fieldOf field message ++ " has a default value but no explicit presence"
  | .defaultTypeMismatch message field type =>
    "default value of " ++ fieldOf field message ++ " does not fit type " ++ type
  | .emptyEnum name => "enum " ++ Quote.json name ++ " has no values"
  | .enumFirstValueNotZero name value number =>
    "first value " ++ Quote.json value ++ " of enum " ++ Quote.json name ++ " is " ++
      toString number ++ ", not 0"
  | .duplicateEnumNumber name number first second =>
    "enum " ++ Quote.json name ++ " gives number " ++ toString number ++ " to both " ++
      Quote.json first ++ " and " ++ Quote.json second ++ " without allowing aliases"
  | .duplicateEnumName name value =>
    "enum " ++ Quote.json name ++ " declares value " ++ Quote.json value ++ " twice"
  | .reservedEnumValue name value =>
    "value " ++ Quote.json value ++ " of enum " ++ Quote.json name ++ " is reserved"
  | .unresolvableCycle path =>
    "messages nest each other without end: " ++ " -> ".intercalate path

/-- The words for violations, each on an indented line. -/
def describeAll (violations : List Violation) : String :=
  "\n".intercalate (violations.map fun violation => "  " ++ violation.message)

end Violation

end Protobuf
