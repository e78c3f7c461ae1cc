import Protobuf.Number.Binary
import Protobuf.Proofs.Wire.Record
import Protobuf.Proofs.Wire.Writer

/-! # Sequences of items

Items are written to a buffer one behind another and read back in the same order, each by the read
for its kind. An item tells by itself where it ends, so that whatever follows it is left alone. Main
statement: `Item.readAll_writeAll`. -/

namespace Protobuf.Wire

open Number

/-- What is written to a buffer at once. -/
inductive Item
  | key (value : Key)
  | varint (value : UInt64)
  | int32 (value : Int32)
  | int64 (value : Int64)
  | zigzag32 (value : Int32)
  | zigzag64 (value : Int64)
  | bool (value : Bool)
  | fixed32 (value : UInt32)
  | fixed64 (value : UInt64)
  | float (value : Binary32)
  | double (value : Binary64)
  | bytes (value : List UInt8)
  | text (value : String)
deriving DecidableEq, Repr

/-- What has to be known to read an item. -/
inductive ItemKind
  | key
  | varint
  | int32
  | int64
  | zigzag32
  | zigzag64
  | bool
  | fixed32
  | fixed64
  | float
  | double
  | bytes
  | text
deriving DecidableEq, Repr

/-- Read an item of a kind. Numbers of 32 bits keep the low half of their varint, and signed ones
are read off their two's complement. -/
def ItemKind.read (maxLength : Nat) : ItemKind → Read Item
  | .key => .key <$> Read.key
  | .varint => (fun n => .varint n.toUInt64) <$> Read.varint
  | .int32 => (fun n => .int32 n.toUInt32.toInt32) <$> Read.varint32
  | .int64 => (fun n => .int64 n.toUInt64.toInt64) <$> Read.varint
  | .zigzag32 => (fun n => .zigzag32 (.ofInt n)) <$> Read.zigzag32
  | .zigzag64 => (fun n => .zigzag64 (.ofInt n)) <$> Read.zigzag64
  | .bool => .bool <$> Read.bool
  | .fixed32 => (fun n => .fixed32 n.toUInt32) <$> Read.fixed32
  | .fixed64 => (fun n => .fixed64 n.toUInt64) <$> Read.fixed64
  | .float => (fun n => .float ⟨n.toUInt32⟩) <$> Read.fixed32
  | .double => (fun n => .double ⟨n.toUInt64⟩) <$> Read.fixed64
  | .bytes => (fun slice => .bytes slice.bytes) <$> Read.payload maxLength
  | .text => .text <$> Read.text maxLength

/-- Read items of some kinds, one behind another. -/
def ItemKind.readAll (maxLength : Nat) : List ItemKind → Read (List Item)
  | [] => pure []
  | kind :: rest => do
    let item ← kind.read maxLength
    let items ← readAll maxLength rest
    return item :: items

namespace Item

/-- The kind of an item. -/
def kind : Item → ItemKind
  | .key _ => .key
  | .varint _ => .varint
  | .int32 _ => .int32
  | .int64 _ => .int64
  | .zigzag32 _ => .zigzag32
  | .zigzag64 _ => .zigzag64
  | .bool _ => .bool
  | .fixed32 _ => .fixed32
  | .fixed64 _ => .fixed64
  | .float _ => .float
  | .double _ => .double
  | .bytes _ => .bytes
  | .text _ => .text

/-- The bytes of an item. -/
def write : Item → List UInt8
  | .key value => Write.key value
  | .varint value => Varint.encode value.toNat
  | .int32 value => Write.signed value.toInt
  | .int64 value => Write.signed value.toInt
  | .zigzag32 value => Write.zigzag value.toInt
  | .zigzag64 value => Write.zigzag value.toInt
  | .bool value => Write.bool value
  | .fixed32 value => Write.fixed32 value.toNat
  | .fixed64 value => Write.fixed64 value.toNat
  | .float value => Write.fixed32 value.bits.toNat
  | .double value => Write.fixed64 value.bits.toNat
  | .bytes value => Write.payload value
  | .text value => Write.text value

/-- A buffer with items written behind what it holds. -/
def writeAll (buffer : List UInt8) (items : List Item) : List UInt8 :=
  items.foldl (fun buffer item => buffer ++ item.write) buffer

/-- Whether an item can be read under a limit: a key has a tag that records may have, and a payload
is no longer than the limit and than any length that can be written. -/
def Fits (maxLength : Nat) : Item → Prop
  | .key value => 1 ≤ value.tag ∧ value.tag ≤ maxTag
  | .bytes value => Short maxLength value
  | .text value => Short maxLength (Text.Utf8.encode value)
  | _ => True

end Item

variable {cursor : Cursor} {rest : List UInt8} {maxLength : Nat}

namespace Read

/-- A word is read back. -/
theorem word_write (layout : Word) {n : Nat} (fits : n < layout.size)
    (front : cursor.rest = Write.word layout n ++ rest) :
    word layout cursor = .ok n (cursor.past (Write.word layout n) rest) :=
  (takes_word layout _ _ _).2 ⟨_, rest, front, rfl, Word.spells_write fits⟩

/-- A key is read back. -/
theorem key_write {found : Key} (pos : 1 ≤ found.tag) (le : found.tag ≤ maxTag)
    (front : cursor.rest = Write.key found ++ rest) :
    key cursor = .ok found (cursor.past (Write.key found) rest) :=
  (takes_key _ _ _).2 ⟨_, rest, front, rfl, Key.spells_write pos le⟩

/-- A payload is read back, and stands where the reading of it ends. -/
theorem payload_write {data : List UInt8} (short : Short maxLength data)
    (front : cursor.rest = Write.payload data ++ rest) :
    ∃ place, payload maxLength cursor =
      .ok ⟨place, data⟩ (cursor.past (Write.payload data) rest) :=
  ⟨cursor.offset + (Varint.encode data.length).length, (takes_payload maxLength _ _ _).2
    ⟨_, rest, front, rfl, _, Varint.spells_encode short.lt, short.le, rfl, rfl⟩⟩

/-- A text is read back. -/
theorem text_write {value : String} (short : Short maxLength (Text.Utf8.encode value))
    (front : cursor.rest = Write.text value ++ rest) :
    text maxLength cursor = .ok value (cursor.past (Write.text value) rest) :=
  (takes_text maxLength _ _ _).2 ⟨_, rest, front, rfl, _,
    .intro (Varint.spells_encode short.lt) short.le, Text.Utf8.decode?_encode value⟩

end Read

theorem Write.bool_eq (value : Bool) : bool value = Varint.encode value.toNat := by
  cases value <;> simp [bool, Varint.encode]

namespace Item

/-- An item is read back, and nothing behind it is touched. -/
theorem read_write {item : Item} (fits : item.Fits maxLength)
    (front : cursor.rest = item.write ++ rest) :
    item.kind.read maxLength cursor = .ok item (cursor.past item.write rest) := by
  have varint {n : Nat} (small : n < UInt64.size) (front : cursor.rest = Varint.encode n ++ rest) :
      Read.varint cursor = .ok n (cursor.past (Varint.encode n) rest) :=
    Read.word_write .varint small front
  cases item with
  | key value => exact Read.map_of_ok (Read.key_write fits.1 fits.2 front) _
  | varint value =>
    have done := Read.map_of_ok (varint value.toNat_lt front) fun n => Item.varint n.toUInt64
    rwa [Nat.toUInt64_eq, UInt64.ofNat_toNat] at done
  | int32 value =>
    have low : (Write.twosComplement value.toInt % UInt32.size).toUInt32.toInt32 = value := by
      rw [Nat.toUInt32_eq, UInt32.ofNat_mod_size]
      exact Write.toInt32_twosComplement value
    have done := Read.map_of_ok (Read.map_of_ok
      (varint (Write.twosComplement_lt value.toInt) front) (· % UInt32.size))
      fun n => Item.int32 n.toUInt32.toInt32
    rwa [low] at done
  | int64 value =>
    have done := Read.map_of_ok (varint (Write.twosComplement_lt value.toInt) front)
      fun n => Item.int64 n.toUInt64.toInt64
    rwa [Write.toInt64_twosComplement] at done
  | zigzag32 value =>
    have small := Zigzag.encode_lt_of_int32 value
    have wide : Zigzag.encode value.toInt < UInt64.size := Nat.lt_trans small (by decide)
    have done := Read.map_of_ok (Read.map_of_ok (Read.map_of_ok (varint wide front)
      (· % UInt32.size)) Zigzag.decode) fun n => Item.zigzag32 (.ofInt n)
    rwa [Nat.mod_eq_of_lt small, Zigzag.decode_encode, Int32.ofInt_toInt] at done
  | zigzag64 value =>
    have done := Read.map_of_ok (Read.map_of_ok (varint (Zigzag.encode_lt_of_int64 value) front)
      Zigzag.decode) fun n => Item.zigzag64 (.ofInt n)
    rwa [Zigzag.decode_encode, Int64.ofInt_toInt] at done
  | bool value =>
    have small : value.toNat < UInt64.size := by cases value <;> decide
    have nonzero : (value.toNat != 0) = value := by cases value <;> rfl
    rw [write, Write.bool_eq] at front ⊢
    have done := Read.map_of_ok (Read.map_of_ok (varint small front) (· != 0)) Item.bool
    rwa [nonzero] at done
  | fixed32 value =>
    have done := Read.map_of_ok (Read.word_write .fixed32 value.toNat_lt front)
      fun n => Item.fixed32 n.toUInt32
    rwa [Nat.toUInt32_eq, UInt32.ofNat_toNat] at done
  | fixed64 value =>
    have done := Read.map_of_ok (Read.word_write .fixed64 value.toNat_lt front)
      fun n => Item.fixed64 n.toUInt64
    rwa [Nat.toUInt64_eq, UInt64.ofNat_toNat] at done
  | float value =>
    have done := Read.map_of_ok (Read.word_write .fixed32 value.bits.toNat_lt front)
      fun n => Item.float ⟨n.toUInt32⟩
    rwa [Nat.toUInt32_eq, UInt32.ofNat_toNat] at done
  | double value =>
    have done := Read.map_of_ok (Read.word_write .fixed64 value.bits.toNat_lt front)
      fun n => Item.double ⟨n.toUInt64⟩
    rwa [Nat.toUInt64_eq, UInt64.ofNat_toNat] at done
  | bytes value =>
    obtain ⟨place, done⟩ := Read.payload_write fits front
    exact Read.map_of_ok done _
  | text value => exact Read.map_of_ok (Read.text_write fits front) _

theorem writeAll_eq_append (buffer : List UInt8) (items : List Item) :
    writeAll buffer items = buffer ++ items.flatMap write := by
  induction items generalizing buffer with
  | nil => simp [writeAll]
  | cons item items ih =>
    calc writeAll buffer (item :: items)
        = (buffer ++ item.write) ++ items.flatMap write := ih _
      _ = buffer ++ (item :: items).flatMap write := by
        rw [List.flatMap_cons, List.append_assoc]

theorem writeAll_cons (item : Item) (items : List Item) :
    writeAll [] (item :: items) = item.write ++ writeAll [] items := by
  simp only [writeAll_eq_append, List.nil_append, List.flatMap_cons]

/-- Items that were written one behind another are read back in the same order, and what follows
the last of them is left unread. -/
theorem readAll_writeAll {items : List Item} (fits : ∀ item ∈ items, item.Fits maxLength)
    (front : cursor.rest = writeAll [] items ++ rest) :
    ItemKind.readAll maxLength (items.map kind) cursor =
      .ok items (cursor.past (writeAll [] items) rest) := by
  induction items generalizing cursor with
  | nil => exact congrArg (EStateM.Result.ok []) (Cursor.past_nil front).symm
  | cons item items ih =>
    rw [writeAll_cons, List.append_assoc] at front
    have first := read_write (fits item List.mem_cons_self) front
    have others := ih (fun other mem => fits other (List.mem_cons_of_mem _ mem))
      (Cursor.rest_past cursor item.write (writeAll [] items ++ rest))
    rw [Cursor.past_past, ← writeAll_cons] at others
    simp only [List.map_cons, ItemKind.readAll, Bind.bind, EStateM.bind, first, others]
    rfl

/-- The largest tag, numbers at both ends of their widths and an empty payload, read back from the
middle of an input and in front of bytes that would continue a number. -/
theorem readAll_writeAll_ends :
    let items : List Item :=
      [.key ⟨maxTag, .lengthDelimited⟩, .int32 (-1), .int32 Int32.maxValue, .int64 Int64.minValue,
        .varint (-1), .zigzag32 Int32.minValue, .zigzag64 Int64.minValue, .bool true, .fixed32 (-1),
        .double ⟨0x7FF8000000000000⟩, .bytes [], .text "é"]
    let bytes := Item.writeAll [] items
    ItemKind.readAll 2 (items.map kind) ⟨7, 3, bytes ++ [0x80, 0x01]⟩ =
      .ok items ⟨7, 3 + bytes.length, [0x80, 0x01]⟩ :=
  readAll_writeAll (by simp [Fits, short_iff]; decide) rfl

end Item

end Protobuf.Wire
