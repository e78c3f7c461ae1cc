import Protobuf.Name
import Protobuf.Table

/-! # Identifiers

Names as identifiers of the emitted Rust text. A name that would be a keyword gets an underscore
behind it, and so does one that is taken already, as many as it needs to be free. -/

namespace Protobuf.Emission

/-- The words that are no identifiers. -/
def keywords : List String :=
  ["_", "abstract", "as", "async", "await", "become", "box", "break", "const", "continue", "crate",
    "do", "dyn", "else", "enum", "extern", "false", "final", "fn", "for", "gen", "if", "impl", "in",
    "let", "loop", "macro", "match", "mod", "move", "mut", "override", "priv", "pub", "ref",
    "return", "self", "Self", "static", "struct", "super", "trait", "true", "try", "type", "typeof",
    "unsafe", "unsized", "use", "virtual", "where", "while", "yield"]

/-- The types that emitted text uses itself. -/
def reservedTypes : List String :=
  ["ByteBuffer", "ByteBufferMut", "UnknownField", "UnknownFields", "WireError", "WireType", "Box",
    "Default", "Err", "From", "None", "Ok", "Option", "Result", "Some", "String", "Vec"]

/-- The methods that every emitted structure has. -/
def reservedMethods : List String :=
  ["encode", "encode_to", "decode", "decode_from", "merge_from", "merge_at", "default", "clone",
    "eq", "ne", "fmt"]

/-- Whether a text starts with a digit of ASCII. -/
def startsWithDigit (text : List Char) : Bool :=
  text.head?.any fun c => '0' ≤ c && c ≤ '9'

/-- An identifier for a name: an underscore goes in front of a digit or of nothing, and one behind
a keyword. -/
def escape (name : String) : String :=
  let name := if name = "" || startsWithDigit name.toList then "_" ++ name else name
  if keywords.contains name then name ++ "_" else name

/-- The identifier of a field. -/
def fieldIdentifier (name : String) : String :=
  escape (Name.snake name)

/-- The identifier of a variant. -/
def variantIdentifier (name : String) : String :=
  escape (Name.pascal name)

/-- The identifier of a constant. -/
def constantIdentifier (name : String) : String :=
  escape (Name.upper (Name.snake name))

/-- The part of a full name below a package. -/
def localName (package fullName : String) : List Char :=
  let scope := package.toList ++ ['.']
  if package ≠ "" && scope.isPrefixOf fullName.toList then fullName.toList.drop scope.length
  else fullName.toList

/-- The identifier of a type: the parts of its name below the package, one after the other. -/
def typeIdentifier (package fullName : String) : String :=
  escape (String.ofList
    ((Name.splitOn '.' (localName package fullName)).flatMap Name.pascalChars))

/-- The identifier of a module. -/
def moduleIdentifier (package : String) : String :=
  fieldIdentifier (package.map fun c => if c = '.' then '_' else c)

/-- An identifier with some underscores behind it. -/
def underscored (identifier : String) (count : Nat) : String :=
  String.ofList (identifier.toList ++ List.replicate count '_')

/-- The identifier with the fewest underscores behind it that is not taken. One more candidate than
there are taken names is always enough. -/
def freeIdentifier (taken : KeySet String) (identifier : String) : String :=
  let count :=
    (List.range (taken.entries.length + 1)).find? fun count =>
      !taken.contains (underscored identifier count)
  underscored identifier (count.getD 0)

/-- Take a free identifier; it comes with the identifiers taken from then on. -/
def claim (taken : KeySet String) (identifier : String) : String × KeySet String :=
  let free := freeIdentifier taken identifier
  (free, taken.add free)

/-- A set of taken names. -/
def taking (names : List String) : KeySet String :=
  KeySet.addAll .empty names

end Protobuf.Emission
