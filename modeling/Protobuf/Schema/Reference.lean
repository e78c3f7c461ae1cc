import Protobuf.Schema.Basic
import Protobuf.Text.Blank
import Protobuf.Text.Quote

/-! # References to types

What a type token stands for: a built-in type, a map, or a declared type. A declared type is looked
up from the scope of the reference outward; a leading dot makes the name a full one.

## Main definitions

* `Name.enclosing` lists the scopes around a place.
* `resolve` gives the type of a token. -/

namespace Protobuf

open Text

namespace Name

theorem length_outer_lt {scope : String} (inside : scope ≠ "") :
    (outer scope).toList.length < scope.toList.length := by
  have dropped : ∀ text : List Char, (text.dropWhile (· ≠ '.')).length ≤ text.length := by
    intro text
    exact (List.dropWhile_suffix _).length_le
  have here := dropped scope.toList.reverse
  have some_left : scope.toList ≠ [] := fun none => inside (String.toList_eq_nil_iff.1 none)
  have positive := List.length_pos_iff.2 some_left
  simp only [outer, String.toList_ofList, List.length_reverse, List.length_drop] at here ⊢
  omega

/-- The scopes around a place, from the innermost out to the root. -/
def enclosing (scope : String) : List String :=
  if scope = "" then [""] else scope :: enclosing (outer scope)
termination_by scope.toList.length
decreasing_by exact length_outer_lt ‹_›

end Name

/-- What a full name refers to. -/
inductive TypeKind
  | message
  | enum
deriving DecidableEq, Repr

/-- A reference to a type of a kind. -/
def TypeKind.refer (name : String) : TypeKind → FieldType
  | .message => .message name
  | .enum => .enum name

/-- The declared types by full name. -/
abbrev KnownTypes := Table String TypeKind

/-- A token that stands for no type. -/
structure UnsupportedType where
  token : String
deriving DecidableEq, Repr

/-- The words for a token that stands for no type. -/
def UnsupportedType.message (error : UnsupportedType) : String :=
  "unsupported type " ++ Quote.json error.token

namespace Reference

/-- The text behind the given letters. -/
def behind? : List Char → List Char → Option (List Char)
  | [], text => some text
  | c :: rest, d :: text => if c = d then behind? rest text else none
  | _ :: _, [] => none

/-- The letters at the start of a text that go on a word, and the text behind them. The word is
refused unless it starts like an identifier. -/
def takeWord (goesOn : Char → Bool) (text : List Char) : Option (List Char × List Char) :=
  match text with
  | c :: _ =>
    if Name.startsIdentifier c then some (text.takeWhile goesOn, text.dropWhile goesOn) else none
  | [] => none

/-- The key and the value of a map token: an identifier, and a name that may have dots. Blanks may
stand around either, and in front of the opening bracket. -/
def mapParts? (token : List Char) : Option (List Char × List Char) := do
  let text ← behind? "map".toList token
  let text ← behind? ['<'] (Blank.dropLeft text)
  let (key, text) ← takeWord Name.continuesIdentifier (Blank.dropLeft text)
  let text ← behind? [','] (Blank.dropLeft text)
  let text := Blank.dropLeft text
  let dot := text.takeWhile (· = '.')
  guard (dot.length ≤ 1)
  let (name, text) ←
    takeWord (fun c => Name.continuesIdentifier c || c = '.') (text.drop dot.length)
  if Blank.dropLeft text = ['>'] then some (key, dot ++ name) else none

/-- Whether a token is a name: identifiers with dots between them, and perhaps one in front. -/
def isName : List Char → Bool
  | '.' :: token => (Name.splitOn '.' token).all Name.isIdentifierChars
  | token => (Name.splitOn '.' token).all Name.isIdentifierChars

/-- The full name that a name refers to: the innermost one that is known, or for a name with a dot
in front, what follows the dot. -/
def fullName? (known : KnownTypes) (scope : String) : List Char → Option String
  | '.' :: absolute => some (String.ofList absolute)
  | name =>
    ((Name.enclosing scope).map (Name.join · (String.ofList name))).find? (known.contains ·)

/-- The type that a token other than a map token stands for. -/
def resolveNamed (known : KnownTypes) (scope : String) (token : List Char) :
    Except UnsupportedType FieldType :=
  match Builtin.ofToken? (String.ofList token) with
  | some type => .ok (.builtin type)
  | none =>
    let found := do
      guard (isName token)
      let name ← fullName? known scope token
      let kind ← known.get? name
      return kind.refer name
    match found with
    | some type => .ok type
    | none => .error ⟨String.ofList token⟩

end Reference

/-- The type that a token stands for, seen inside a scope. Blanks around a token do not count. -/
def resolve (known : KnownTypes) (scope token : String) : Except UnsupportedType FieldType := do
  let token := Blank.trim token.toList
  match Reference.mapParts? token with
  | some (key, value) =>
    let key ← Reference.resolveNamed known scope key
    let value ← Reference.resolveNamed known scope value
    return .map key value
  | none => Reference.resolveNamed known scope token

end Protobuf
