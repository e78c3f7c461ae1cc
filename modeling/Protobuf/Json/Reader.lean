import Protobuf.Json.Numeral
import Protobuf.Number.Bounds

/-! # Reading JSON

A reader takes what it asks for off the start of a text, in one pass, so that of two faults the
one that stands first is reported. `Shape` describes how a structure is written: as an object of
its fields, or as an array of their values in the declared order. The readers carry the number of
levels that may still be opened. -/

namespace Protobuf.Json

open Number

/-- Reads off the start of a text. -/
abbrev Reader := EStateM Fault (List Char)

namespace Reader

/-- How many levels of arrays and objects a text may open. -/
def maxLevels : Nat := 127

/-- Fail because of what the text says. -/
def mismatch {α : Type} (cause : Mismatch) : Reader α :=
  throw (.mismatch cause)

/-- Skip blanks and look at the next character. -/
def peek : Reader (Option Char) :=
  modifyGet fun text =>
    let text := text.dropWhile (" \n\t\r".toList.contains ·)
    (text.head?, text)

/-- Skip the next character. -/
def skip : Reader Unit :=
  modify (List.drop 1)

/-- Take the given letters. -/
def letters : List Char → Reader Unit
  | [] => pure ()
  | c :: rest => do
    match ← get with
    | [] => throw .ended
    | next :: after =>
      set after
      if next = c then letters rest else throw .malformed

/-- The value of a digit in base 16. -/
def hexDigit? (c : Char) : Option Nat :=
  if '0' ≤ c && c ≤ '9' then some (c.toNat - '0'.toNat)
  else if 'a' ≤ c && c ≤ 'f' then some (c.toNat - 'a'.toNat + 10)
  else if 'A' ≤ c && c ≤ 'F' then some (c.toNat - 'A'.toNat + 10)
  else none

/-- The value of four digits in base 16. A text with fewer than four bytes left has ended. -/
def hexUnit (text : List Char) : Except Fault Nat :=
  match text.take 4, (text.take 4).mapM hexDigit? with
  | [_, _, _, _], some digits => .ok (digits.foldl (16 * · + ·) 0)
  | near, _ => .error (if (String.ofList near).utf8ByteSize < 4 then .ended else .malformed)

/-- The character an escape stands for and the length of the escape, given what follows the
backslash. With `lenient`, halves of surrogate pairs are let through. -/
def unescape (lenient : Bool) : List Char → Except Fault (Char × Nat)
  | [] => .error .ended
  | '"' :: _ => .ok ('"', 1)
  | '\\' :: _ => .ok ('\\', 1)
  | '/' :: _ => .ok ('/', 1)
  | 'b' :: _ => .ok ('\x08', 1)
  | 'f' :: _ => .ok ('\x0c', 1)
  | 'n' :: _ => .ok ('\n', 1)
  | 'r' :: _ => .ok ('\r', 1)
  | 't' :: _ => .ok ('\t', 1)
  | 'u' :: rest => do
    let unit ← hexUnit rest
    if lenient || unit < 0xD800 || 0xDFFF < unit then return (Char.ofNat unit, 5)
    if 0xDC00 ≤ unit then throw .malformed
    match rest.drop 4 with
    | [] => throw .ended
    | '\\' :: [] => throw .ended
    | '\\' :: 'u' :: second =>
      let low ← hexUnit second
      if low < 0xDC00 || 0xDFFF < low then throw .malformed
      return (Char.ofNat ((unit - 0xD800) * 1024 + (low - 0xDC00) + 0x10000), 11)
    | _ => throw .malformed
  | _ => .error .malformed

/-- The characters of a string up to its closing quote, and the text behind it. -/
def stringBody (lenient : Bool) (text : List Char) : Except Fault (List Char × List Char) :=
  match text with
  | [] => .error .ended
  | c :: rest =>
    if c = '"' then .ok ([], rest)
    else if c = '\\' then
      match unescape lenient rest with
      | .error fault => .error fault
      | .ok (char, length) =>
        match stringBody lenient (rest.drop length) with
        | .error fault => .error fault
        | .ok (chars, after) => .ok (char :: chars, after)
    else if c.toNat < 32 then .error .malformed
    else
      match stringBody lenient rest with
      | .error fault => .error fault
      | .ok (chars, after) => .ok (c :: chars, after)
termination_by text.length
decreasing_by all_goals simp; try omega

/-- Run a function that takes something off the start of the text. -/
def ofFunction {α : Type} (take : List Char → Except Fault (α × List Char)) : Reader α := do
  match take (← get) with
  | .ok (value, after) =>
    set after
    return value
  | .error fault => throw fault

/-- The rest of a string whose opening quote is next. -/
def quoted (lenient : Bool := false) : Reader String := do
  skip
  return String.ofList (← ofFunction (stringBody lenient))

/-- A numeral that is next, with its sign. -/
def numeral : Reader Numeral := do
  let negative := (← get).head? = some '-'
  if negative then skip
  let numeral ← ofFunction scanNumeral
  match numeral.value negative with
  | .ok value => return value
  | .error fault => throw fault

/-- The fault of something other than was asked for, given its first character. -/
def unexpected {α : Type} (first : Char) (expected : String) : Reader α := do
  let found ←
    if first = 'n' then
      letters "null".toList
      pure Found.null
    else if first = 't' then
      letters "true".toList
      pure (Found.boolean true)
    else if first = 'f' then
      letters "false".toList
      pure (Found.boolean false)
    else if first = '-' || (digit? first).isSome then
      match ← numeral with
      | .integer value => pure (Found.integer value)
      | .double value => pure (Found.double value)
    else if first = '"' then pure (Found.text (← quoted))
    else if first = '[' then pure Found.sequence
    else if first = '{' then pure Found.map
    else throw .malformed
  mismatch (.invalidType found expected)

/-- The first character of the next value; a text must not end there. -/
def next : Reader Char := do
  match ← peek with
  | some c => return c
  | none => throw .ended

/-- A string. -/
def string : Reader String := do
  let first ← next
  if first = '"' then quoted else unexpected first "a string"

/-- A truth value. -/
def boolean : Reader Bool := do
  let first ← next
  if first = 't' then
    letters "true".toList
    return true
  else if first = 'f' then
    letters "false".toList
    return false
  else unexpected first "a boolean"

/-- A whole number between two bounds, of a kind with a name. -/
def integer (bounds : Bounds) (expected : String) : Reader Int := do
  let first ← next
  if first = '-' || (digit? first).isSome then
    match ← numeral with
    | .double value => mismatch (.invalidType (.double value) expected)
    | .integer value =>
      if bounds.holds value then return value
      else mismatch (.invalidValue (.integer value) expected)
  else unexpected first expected

/-- A value, or none for null. -/
def optional {α : Type} (value : Reader α) : Reader (Option α) := do
  if (← peek) = some 'n' then
    letters "null".toList
    return none
  else return some (← value)

/-- Whether another element follows in an array. -/
def moreElements (first : Bool) : Reader Bool := do
  match ← peek with
  | none => throw .ended
  | some ']' => return false
  | some ',' =>
    if first then return true
    skip
    if (← next) = ']' then throw .malformed
    return true
  | some _ => if first then return true else throw .malformed

/-- The end of an array. -/
def endArray : Reader Unit := do
  match ← peek with
  | none => throw .ended
  | some ']' => skip
  | some _ => throw .malformed

/-- Whether another member follows in an object. -/
def moreMembers (first : Bool) : Reader Bool := do
  match ← peek with
  | none => throw .ended
  | some '}' => return false
  | some ',' =>
    if first then throw .malformed
    skip
    if (← next) = '"' then return true else throw .malformed
  | some c => if first && c = '"' then return true else throw .malformed

/-- The colon between the name and the value of a member. -/
def colon : Reader Unit := do
  if (← next) = ':' then skip else throw .malformed

/-- Open a level, if one may still be opened. -/
def openLevel (levels : Nat) : Reader Unit :=
  if levels = 0 then throw .malformed else skip

/-- Up to `fuel` elements of an array. -/
def elements {α : Type} (item : Reader α) (first : Bool) : Nat → Reader (List α)
  | 0 => throw .ended
  | fuel + 1 => do
    if ← moreElements first then
      let value ← item
      return value :: (← elements item false fuel)
    else return []

/-- Up to `fuel` members of an object, their values read by name. -/
def members {α : Type} (lenient : Bool) (value : String → Reader α) (first : Bool) :
    Nat → Reader (List α)
  | 0 => throw .ended
  | fuel + 1 => do
    if ← moreMembers first then
      let name ← quoted lenient
      colon
      let item ← value name
      return item :: (← members lenient value false fuel)
    else return []

/-- Each element or member takes at least one character, so the length of the text bounds how
many there are. -/
def bound : Reader Nat := do
  return (← get).length + 1

/-- An array. The reader of its elements is given the levels left. -/
def array {α : Type} (levels : Nat) (item : Nat → Reader α) : Reader (List α) := do
  let first ← next
  if first = '[' then
    openLevel levels
    let items ← elements (item (levels - 1)) true (← bound)
    endArray
    return items
  else unexpected first "a sequence"

/-- Any value, skipped over: at most `fuel` levels deep, but no limit of its own. -/
def ignored : Nat → Reader Unit
  | 0 => throw .ended
  | fuel + 1 => do
    let first ← next
    if first = 'n' then letters "null".toList
    else if first = 't' then letters "true".toList
    else if first = 'f' then letters "false".toList
    else if first = '"' then discard (quoted true)
    else if first = '-' || (digit? first).isSome then
      if first = '-' then skip
      match scanNumeral (← get) with
      | .ok (_, after) => set after
      | .error _ => throw .malformed
    else if first = '[' then
      skip
      discard (elements (ignored fuel) true fuel)
      skip
    else if first = '{' then
      skip
      discard (members true (fun _ => ignored fuel) true fuel)
      skip
    else throw .malformed

/-- A plain value, or something else that was read to its end. -/
inductive Plain
  | boolean (value : Bool)
  | number (value : Numeral)
  | text (value : String)
  | other
deriving Repr

/-- Any value; `inner` reads what stands inside an array or object. -/
def plainOver (levels : Nat) (inner : Reader Plain) : Reader Plain := do
  let first ← next
  if first = 'n' then
    letters "null".toList
    return .other
  else if first = 't' || first = 'f' then return .boolean (← boolean)
  else if first = '"' then return .text (← quoted)
  else if first = '-' || (digit? first).isSome then return .number (← numeral)
  else if first = '[' then
    openLevel levels
    discard (elements inner true (← bound))
    skip
    return .other
  else if first = '{' then
    openLevel levels
    discard (members false (fun _ => inner) true (← bound))
    skip
    return .other
  else throw .malformed

/-- Any value. -/
def plain : Nat → Reader Plain
  | 0 => plainOver 0 (throw .malformed)
  | levels + 1 => plainOver (levels + 1) (plain levels)

/-- One of the given names, written as a string or as an object with the name and null. -/
def variant {α : Type} (levels : Nat) (names : List (String × α)) : Reader α := do
  let choose (name : String) : Reader α :=
    match names.lookup name with
    | some value => pure value
    | none => mismatch (.unknownVariant name (names.map (·.1)))
  let first ← next
  if first = '"' then choose (← quoted)
  else if first = '{' then
    openLevel levels
    if (← next) ≠ '"' then throw .malformed
    let value ← choose (← quoted)
    colon
    let inside ← next
    if inside = 'n' then letters "null".toList else unexpected inside "unit"
    if (← next) = '}' then skip else throw .malformed
    return value
  else throw .malformed

end Reader

/-- A field of a structure: its name, whether it must be there, and how its value is read into
the structure, given the levels left. -/
structure Slot (σ : Type) where
  name : String
  required : Bool := false
  read : Nat → Reader (σ → σ)

/-- A slot whose value is stored by a function. -/
def Slot.of {σ α : Type} (name : String) (value : Nat → Reader α) (store : α → σ → σ)
    (required : Bool := false) : Slot σ :=
  ⟨name, required, fun levels => store <$> value levels⟩

/-- How a structure is written. -/
structure Shape (σ : Type) where
  /-- The name of the structure, for what was expected. -/
  name : String
  /-- The structure before any field is read. -/
  blank : σ
  slots : List (Slot σ)
  /-- Whether members with other names are refused; they are skipped otherwise. -/
  closed : Bool := true

namespace Shape

variable {σ : Type}

/-- What an array of too few values should have been. -/
def counted (shape : Shape σ) : String :=
  "struct " ++ shape.name ++ " with " ++ toString shape.slots.length ++
    (if shape.slots.length = 1 then " element" else " elements")

/-- The values of slots in order, the first of them at a position of the array. -/
def fromArray (shape : Shape σ) (levels : Nat) (position : Nat) :
    List (Slot σ) → σ → Reader σ
  | [], value => pure value
  | slot :: rest, value => do
    if ← Reader.moreElements (position = 0) then
      let store ← slot.read levels
      fromArray shape levels (position + 1) rest (store value)
    else if slot.required then
      Reader.mismatch (.invalidLength position shape.counted)
    else fromArray shape levels (position + 1) rest value

/-- Up to `fuel` members, after those with the names in `seen`. -/
def fromObject (shape : Shape σ) (levels : Nat) (seen : List String) (value : σ) :
    Nat → Reader σ
  | 0 => throw .ended
  | fuel + 1 => do
    if ← Reader.moreMembers seen.isEmpty then
      let name ← Reader.quoted
      match shape.slots.find? (·.name = name) with
      | some slot =>
        if seen.contains name then Reader.mismatch (.duplicateField name)
        Reader.colon
        let store ← slot.read levels
        fromObject shape levels (name :: seen) (store value) fuel
      | none =>
        if shape.closed then
          Reader.mismatch (.unknownField name (shape.slots.map (·.name)))
        Reader.colon
        Reader.ignored (← Reader.bound)
        fromObject shape levels (name :: seen) value fuel
    else
      match shape.slots.find? fun slot => slot.required && !seen.contains slot.name with
      | some slot => Reader.mismatch (.missingField slot.name)
      | none => return value

/-- Read a structure. -/
def read (shape : Shape σ) (levels : Nat) : Reader σ := do
  let first ← Reader.next
  if first = '[' then
    Reader.openLevel levels
    let value ← fromArray shape (levels - 1) 0 shape.slots shape.blank
    Reader.endArray
    return value
  else if first = '{' then
    Reader.openLevel levels
    let value ← fromObject shape (levels - 1) [] shape.blank (← Reader.bound)
    Reader.skip
    return value
  else Reader.unexpected first ("struct " ++ shape.name)

end Shape

/-- Read a whole text. -/
def Reader.run {α : Type} (reader : Reader α) (text : String) : Except Fault α :=
  let whole : Reader α := do
    let value ← reader
    if (← Reader.peek).isSome then throw .malformed
    return value
  match EStateM.run whole text.toList with
  | .ok value _ => .ok value
  | .error fault _ => .error fault

end Protobuf.Json
