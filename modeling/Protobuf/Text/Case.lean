import Protobuf.Text.CaseTable

/-! # Letter case

Full case mapping of characters and texts. A mapping may lengthen a text. The only mapping that
looks at its surroundings is that of the capital sigma, which has a form of its own at the end
of a word. -/

namespace Protobuf.Text.Case

open CodeRange

/-- Whether a character has the property Uppercase. -/
def isUpper (c : Char) : Bool :=
  if c.toNat < 128 then 'A' ≤ c && c ≤ 'Z' else memRuns CaseTable.uppercase c.toNat

/-- Whether a character has the property Lowercase. -/
def isLower (c : Char) : Bool :=
  if c.toNat < 128 then 'a' ≤ c && c ≤ 'z' else memRuns CaseTable.lowercase c.toNat

/-- Whether a character has the property Cased. -/
def isCased (c : Char) : Bool :=
  if c.toNat < 128 then isUpper c || isLower c else mem CaseTable.cased c.toNat

/-- Whether a character has the property Case_Ignorable. -/
def isIgnorable (c : Char) : Bool :=
  if c.toNat < 128 then "'.:^\x60".toList.contains c else mem CaseTable.caseIgnorable c.toNat

/-- The upper case of one character. -/
def upper (c : Char) : List Char :=
  if c.toNat < 128 then
    [if isLower c then Char.ofNat (c.toNat - 32) else c]
  else
    match CaseTable.upperLong.lookup c.toNat with
    | some codes => codes.map Char.ofNat
    | none => [Char.ofNat (shift CaseTable.upperShift c.toNat)]

/-- The lower case of one character on its own. -/
def lower (c : Char) : List Char :=
  if c.toNat < 128 then
    [if isUpper c then Char.ofNat (c.toNat + 32) else c]
  else
    match CaseTable.lowerLong.lookup c.toNat with
    | some codes => codes.map Char.ofNat
    | none => [Char.ofNat (shift CaseTable.lowerShift c.toNat)]

/-- The upper case of a text. -/
def upperAll (text : List Char) : List Char :=
  text.flatMap upper

/-- Whether a cased character comes next, ignorable characters left out. -/
def meetsCased (text : List Char) : Bool :=
  match text.dropWhile isIgnorable with
  | c :: _ => isCased c
  | [] => false

/-- The lower case of a text that follows `before`, which is given backwards. A capital sigma
that ends a word becomes the final small sigma. -/
def lowerAfter (before : List Char) : List Char → List Char
  | [] => []
  | c :: rest =>
    let small :=
      if c = 'Σ' then [if meetsCased before && !meetsCased rest then 'ς' else 'σ'] else lower c
    small ++ lowerAfter (c :: before) rest

/-- The lower case of a text. -/
def lowerAll (text : List Char) : List Char :=
  lowerAfter [] text

end Protobuf.Text.Case
