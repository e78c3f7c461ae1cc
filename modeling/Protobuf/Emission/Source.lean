import Protobuf.Text.Quote

/-! # Source text

Emitted text as a tree of lines and blocks, so that what is emitted can be looked at before it is
text. Each block is set in by four blanks. -/

namespace Protobuf.Emission

open Text

/-- A piece of source text. -/
inductive Source
  | blank
  | line (text : String)
  /-- A statement that writes a record key to a buffer. -/
  | writeKey (buffer : String) (key : List UInt8)
  /-- A line that opens a block, what is inside, and what follows the closing brace. -/
  | block (opening : String) (body : List Source) (closing : String)
deriving Repr

namespace Source

/-- A byte in base 16. -/
def byteLiteral (b : UInt8) : String :=
  String.ofList ("0x".toList ++ (Quote.hexPadded 2 b.toNat).map Char.toUpper)

/-- Bytes as a slice literal. -/
def keyLiteral (key : List UInt8) : String :=
  "&[" ++ ", ".intercalate (key.map byteLiteral) ++ "]"

/-- A line at a level. -/
def indented (level : Nat) (text : String) : String :=
  String.ofList (List.replicate (4 * level) ' ') ++ text

mutual

/-- The lines of a piece at a level. -/
def lines (level : Nat) : Source → List String
  | .blank => [""]
  | .line text => [indented level text]
  | .writeKey buffer key =>
    [indented level (buffer ++ ".write_bytes(" ++ keyLiteral key ++ ");")]
  | .block opening body closing =>
    indented level (opening ++ " \x7b") ::
      (linesAll (level + 1) body ++ [indented level ("\x7d" ++ closing)])

/-- The lines of pieces at a level. -/
def linesAll (level : Nat) : List Source → List String
  | [] => []
  | source :: rest => source.lines level ++ linesAll level rest

end

mutual

/-- The keys that a piece writes to a buffer, from top to bottom. -/
def keysTo (buffer : String) : Source → List (List UInt8)
  | .writeKey found key => if found = buffer then [key] else []
  | .block _ body _ => allKeysTo buffer body
  | _ => []

/-- The keys that pieces write to a buffer, from top to bottom. -/
def allKeysTo (buffer : String) : List Source → List (List UInt8)
  | [] => []
  | source :: rest => source.keysTo buffer ++ allKeysTo buffer rest

end

/-- The text of pieces. -/
def render (sources : List Source) : String :=
  "\n".intercalate (linesAll 0 sources)

end Source

/-- A block that ends with its closing brace. -/
def block (opening : String) (body : List Source) : Source :=
  .block opening body ""

end Protobuf.Emission
