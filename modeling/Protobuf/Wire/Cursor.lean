import Protobuf.Text.Utf8
import Protobuf.Wire.Error
import Protobuf.Wire.Key
import Protobuf.Wire.Varint
import Protobuf.Wire.Zigzag

/-! # Reading from a buffer

A cursor stands in a buffer of bytes that itself lies somewhere in the outermost input. Each read
moves the cursor over what it takes. A read that fails leaves the cursor where the failure was
noticed: a length that was read stays consumed when its payload is missing.

## Implementation notes

Only the bytes that are still to be read are kept, next to how many were read before them. Words
are whole numbers; the width of a word is part of the read, not of its result. -/

namespace Protobuf.Wire

/-- Bytes at a place of the outermost input. -/
structure Slice where
  offset : Nat
  bytes : List UInt8
deriving DecidableEq, Repr

/-- A place in a buffer. -/
structure Cursor where
  /-- Where the buffer starts in the outermost input. -/
  base : Nat := 0
  /-- How many bytes of the buffer were read. -/
  index : Nat := 0
  /-- The bytes of the buffer that are still to be read. -/
  rest : List UInt8
deriving DecidableEq, Repr

namespace Cursor

/-- The start of a buffer that holds a slice. -/
def ofSlice (slice : Slice) : Cursor :=
  { base := slice.offset, rest := slice.bytes }

/-- The place of the next byte in the outermost input. -/
def offset (cursor : Cursor) : Nat :=
  cursor.base + cursor.index

/-- How many bytes are still to be read. -/
def remaining (cursor : Cursor) : Nat :=
  cursor.rest.length

/-- The cursor moved over some bytes. -/
def advance (cursor : Cursor) (count : Nat) : Cursor :=
  { cursor with index := cursor.index + count, rest := cursor.rest.drop count }

/-- The bytes between an earlier place of the same buffer and a later one. -/
def upTo (start finish : Cursor) : List UInt8 :=
  start.rest.take (finish.index - start.index)

end Cursor

/-- Reads from a buffer. -/
abbrev Read := EStateM Error Cursor

namespace Read

/-- Some bytes as they are. -/
def bytes (count : Nat) : Read (List UInt8) := fun cursor =>
  if count ≤ cursor.rest.length then .ok (cursor.rest.take count) (cursor.advance count)
  else .error (.truncated cursor.offset count cursor.rest.length) cursor

/-- A varint. -/
def varint : Read Nat := fun cursor =>
  match Varint.decode cursor.rest with
  | some (value, used) => .ok value (cursor.advance used)
  | none => .error (.malformedVarint cursor.offset) cursor

/-- The place of the next byte in the outermost input. -/
def offset : Read Nat := fun cursor => .ok cursor.offset cursor

/-- One byte. -/
def byte : Read UInt8 := do
  return (← bytes 1).headD 0

/-- The number with the given bytes as its digits in base 256, the low digit first. -/
def littleEndian : List UInt8 → Nat
  | [] => 0
  | b :: rest => b.toNat + 256 * littleEndian rest

/-- Four bytes, the low byte first. -/
def fixed32 : Read Nat := littleEndian <$> bytes 4

/-- Eight bytes, the low byte first. -/
def fixed64 : Read Nat := littleEndian <$> bytes 8

/-- The low 32 bits of a varint. -/
def varint32 : Read Nat := (· % UInt32.size) <$> varint

/-- A zigzag number in a varint. -/
def zigzag64 : Read Int := Zigzag.decode <$> varint

/-- A zigzag number in the low 32 bits of a varint. -/
def zigzag32 : Read Int := Zigzag.decode <$> varint32

/-- A truth value: any varint but zero is true. -/
def bool : Read Bool := (· != 0) <$> varint

/-- A varint length and that many bytes, with the place of the first of them. A length above the
limit fails before its bytes are looked at. -/
def payload (maxLength : Nat) : Read Slice := do
  let start ← offset
  let length ← varint
  if maxLength < length then throw (.limitExceeded start .lengthPrefix maxLength length)
  else
    let place ← offset
    let data ← bytes length
    return ⟨place, data⟩

/-- A payload that is the UTF-8 form of a text. -/
def text (maxLength : Nat) : Read String := do
  let slice ← payload maxLength
  match Text.Utf8.decode? slice.bytes with
  | some text => return text
  | none => throw (.invalidUtf8 slice.offset)

/-- A record key. Tags outside `1` to `2 ^ 29 - 1` and wire types that have no meaning fail. -/
def key : Read Key := do
  let start ← offset
  let value ← varint
  let (tag, id) := splitKey value
  if tag = 0 ∨ maxTag < tag then throw (.invalidTag start value)
  else
    match WireType.ofId? id with
    | some wireType => return ⟨tag, wireType⟩
    | none => throw (.unsupportedWireType start id)

end Read

end Protobuf.Wire
