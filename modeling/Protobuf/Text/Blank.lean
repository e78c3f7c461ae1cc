import Protobuf.Text.CodeRange

/-! # Blank characters

The characters with the property White_Space, and a text without those at its ends. -/

namespace Protobuf.Text.Blank

/-- Code points with the property White_Space. -/
def table : List (Nat × Nat) :=
  [(0x9, 0xD), (0x20, 0x20), (0x85, 0x85), (0xA0, 0xA0), (0x1680, 0x1680), (0x2000, 0x200A),
    (0x2028, 0x2029), (0x202F, 0x202F), (0x205F, 0x205F), (0x3000, 0x3000)]

/-- Whether a character is blank. -/
def isBlank (c : Char) : Bool :=
  CodeRange.mem table c.toNat

/-- The text from its first character that is not blank. -/
def dropLeft (text : List Char) : List Char :=
  text.dropWhile isBlank

/-- The text up to its last character that is not blank. -/
def dropRight (text : List Char) : List Char :=
  (dropLeft text.reverse).reverse

/-- The text without the blanks at its ends. -/
def trim (text : List Char) : List Char :=
  dropRight (dropLeft text)

end Protobuf.Text.Blank
