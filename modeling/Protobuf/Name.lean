import Protobuf.Text.Case

/-! # Names of types and fields

Full names are parts joined by dots, the innermost last. The functions here take them apart, look
outward from a scope, and turn the parts into the two letter cases that derived names use. -/

namespace Protobuf.Name

open Text

/-- The parts of a text between occurrences of a character; at least one, perhaps empty. -/
def splitOn (separator : Char) : List Char → List (List Char)
  | [] => [[]]
  | c :: rest =>
    if c = separator then [] :: splitOn separator rest
    else
      match splitOn separator rest with
      | part :: parts => (c :: part) :: parts
      | [] => [[c]]

/-- The last part of a full name. -/
def simple (fullName : String) : String :=
  String.ofList (fullName.toList.reverse.takeWhile (· ≠ '.')).reverse

/-- A name inside a scope; at the root, the name itself. -/
def join (scope name : String) : String :=
  if scope = "" then name else scope ++ "." ++ name

/-- The scope without its last part; the root for a scope of one part. -/
def outer (scope : String) : String :=
  String.ofList ((scope.toList.reverse.dropWhile (· ≠ '.')).drop 1).reverse

/-- A word with its first letter in upper case, and the others in lower case if `flatten`. -/
def capitalize (flatten : Bool) : List Char → List Char
  | [] => []
  | c :: rest => Case.upper c ++ (if flatten then Case.lowerAll rest else rest)

/-- The Pascal case of a name. With underscores, each word between them is capitalized and
flattened; without, the first letter is raised, and the others are lowered only when the name
was all upper case. -/
def pascalChars (name : List Char) : List Char :=
  if name.contains '_' then
    ((splitOn '_' name).filter (!·.isEmpty)).flatMap (capitalize true)
  else capitalize (name = Case.upperAll name) name

/-- The snake case of what follows the character `before`. An underscore goes in front of an
upper-case letter that starts a word; a run of upper-case letters is one word, less its last
letter if a lower-case one follows. -/
def snakeAfter (before : Option Char) : List Char → List Char
  | [] => []
  | c :: rest =>
    let here :=
      if Case.isUpper c then
        let starts :=
          match before with
          | none => false
          | some b =>
            if Case.isUpper b then rest.head?.any Case.isLower else b ≠ '_'
        (if starts then ['_'] else []) ++ Case.lower c
      else [c]
    here ++ snakeAfter (some c) rest

/-- The Pascal case of a name. -/
def pascal (name : String) : String :=
  String.ofList (pascalChars name.toList)

/-- The snake case of a name. -/
def snake (name : String) : String :=
  String.ofList (snakeAfter none name.toList)

/-- The upper case of a name. -/
def upper (name : String) : String :=
  String.ofList (Case.upperAll name.toList)

/-- Whether a character may start an identifier: a letter of ASCII or an underscore. -/
def startsIdentifier (c : Char) : Bool :=
  ('A' ≤ c && c ≤ 'Z') || ('a' ≤ c && c ≤ 'z') || c == '_'

/-- Whether a character may go on an identifier: one that may start it, or a digit. -/
def continuesIdentifier (c : Char) : Bool :=
  startsIdentifier c || ('0' ≤ c && c ≤ '9')

/-- Whether a text is an identifier. -/
def isIdentifierChars : List Char → Bool
  | [] => false
  | c :: rest => startsIdentifier c && rest.all continuesIdentifier

/-- Whether a name is an identifier. -/
def isIdentifier (name : String) : Bool :=
  isIdentifierChars name.toList

end Protobuf.Name
