import Protobuf.Proofs.Wire.Form
import Protobuf.Wire.Unknown

/-! # Forms of records

Keys and values are read from exactly the bytes of their forms, so records and rows of records are
too. Main statement: taking a buffer apart ends without a fault exactly if the buffer is a row of
records, and gives these records, `split_eq_none_iff`.

## Implementation notes

The form of a row has the place where the row starts, so that rows can be put behind one another
and moved. -/

namespace Protobuf.Wire

theorem Word.wireType_inj {layout other : Word} :
    layout.wireType = other.wireType ↔ layout = other := by
  cases layout <;> cases other <;> decide

theorem Word.wireType_ne (layout : Word) : layout.wireType ≠ .lengthDelimited := by
  cases layout <;> decide

/-- Some bytes that are a value at one place are one at any other. -/
theorem RawValue.Spells.exists_at {maxLength place : Nat} {wireType : WireType}
    {bytes : List UInt8} {value : RawValue} (form : Spells maxLength place wireType bytes value)
    (other : Nat) : ∃ value', Spells maxLength other wireType bytes value' := by
  cases form with
  | word form => exact ⟨_, .word form⟩
  | payload form short => exact ⟨_, .payload form short⟩

namespace Read

theorem takes_word (layout : Word) : (word layout).Takes fun _ used n => layout.Spells used n := by
  cases layout with
  | varint =>
    refine takes_varint.congr fun place used n => ⟨.varint, fun form => ?_⟩
    cases form with
    | varint form => exact form
  | fixed64 =>
    refine ((takes_bytes 8).map littleEndian).congr fun place used n => ⟨?_, fun form => ?_⟩
    · rintro ⟨_, ⟨width, rfl⟩, rfl⟩
      exact .fixed64 width
    · cases form with
      | fixed64 width => exact ⟨used, ⟨width, rfl⟩, rfl⟩
  | fixed32 =>
    refine ((takes_bytes 4).map littleEndian).congr fun place used n => ⟨?_, fun form => ?_⟩
    · rintro ⟨_, ⟨width, rfl⟩, rfl⟩
      exact .fixed32 width
    · cases form with
      | fixed32 width => exact ⟨used, ⟨width, rfl⟩, rfl⟩

theorem takes_payload (maxLength : Nat) :
    (payload maxLength).Takes fun place used slice =>
      ∃ length, Varint.Spells Varint.maxBytes length slice.bytes.length ∧
        slice.bytes.length ≤ maxLength ∧ slice.offset = place + length.length ∧
        used = length ++ slice.bytes := by
  have takes : (payload maxLength).Takes _ :=
    takes_offset.bind fun start => takes_varint.bind fun count =>
      (?_ : Takes _ fun place used slice =>
        count ≤ maxLength ∧ used.length = count ∧ slice = ⟨place, used⟩)
  · refine takes.congr fun place used slice => ⟨?_, ?_⟩
    · rintro ⟨_, _, _, rfl, ⟨rfl, rfl⟩, count, length, bytes, rfl, form, short, rfl, rfl⟩
      exact ⟨length, form, short, by simp, rfl⟩
    · rintro ⟨length, form, short, same, rfl⟩
      refine ⟨place, [], _, rfl, ⟨rfl, rfl⟩, _, length, slice.bytes, rfl, form, short, rfl, ?_⟩
      cases slice
      simpa using same
  · by_cases tooLong : maxLength < count
    · simp only [tooLong, if_true]
      refine (takes_throw _).congr fun place used slice => ⟨False.elim, fun ⟨short, _⟩ => ?_⟩
      exact absurd tooLong (Nat.not_lt.2 short)
    · simp only [tooLong, if_false]
      refine (takes_offset.bind fun start' => (takes_bytes count).bind fun data =>
        takes_pure _).congr fun place used slice => ⟨?_, ?_⟩
      · rintro ⟨_, _, _, rfl, ⟨rfl, rfl⟩, _, front, back, rfl, ⟨width, rfl⟩, rfl, rfl⟩
        exact ⟨Nat.not_lt.1 tooLong, by simpa using width, by simp⟩
      · rintro ⟨_, width, rfl⟩
        exact ⟨place, [], used, rfl, ⟨rfl, rfl⟩, used, used, [], by simp, ⟨width, rfl⟩, rfl, rfl⟩

theorem takes_rawValue (maxLength : Nat) (wireType : WireType) :
    (rawValue maxLength wireType).Takes fun place used value =>
      RawValue.Spells maxLength place wireType used value := by
  have ofWord : ∀ layout : Word, (RawValue.word layout <$> word layout).Takes
      fun place used value => RawValue.Spells maxLength place layout.wireType used value := by
    intro layout
    refine ((takes_word layout).map _).congr fun place used value => ⟨?_, fun form => ?_⟩
    · rintro ⟨n, form, rfl⟩
      exact .word form
    · generalize type : layout.wireType = wireType at form
      cases form with
      | word form =>
        obtain rfl := Word.wireType_inj.1 type
        exact ⟨_, form, rfl⟩
      | payload => exact absurd type layout.wireType_ne
  cases wireType with
  | varint => exact ofWord .varint
  | fixed64 => exact ofWord .fixed64
  | fixed32 => exact ofWord .fixed32
  | lengthDelimited =>
    refine ((takes_payload maxLength).map _).congr fun place used value => ⟨?_, fun form => ?_⟩
    · rintro ⟨⟨start, bytes⟩, ⟨length, form, short, rfl, rfl⟩, rfl⟩
      exact .payload form short
    · generalize type : WireType.lengthDelimited = wireType at form
      cases form with
      | @word layout => exact absurd type.symm layout.wireType_ne
      | payload form short => exact ⟨_, ⟨_, form, short, rfl, rfl⟩, rfl⟩

theorem takes_text (maxLength : Nat) : (text maxLength).Takes fun _ used value =>
    ∃ data, Payload maxLength used data ∧ Text.Utf8.decode? data = some value := by
  have takes : (text maxLength).Takes _ :=
    (takes_payload maxLength).bind fun slice =>
      (?_ : Takes _ fun _ used value => used = [] ∧ Text.Utf8.decode? slice.bytes = some value)
  · refine takes.congr fun place used value => ⟨?_, ?_⟩
    · rintro ⟨slice, _, _, rfl, ⟨length, form, short, -, rfl⟩, rfl, spelled⟩
      exact ⟨slice.bytes, by simpa using Payload.intro form short, spelled⟩
    · rintro ⟨data, @⟨length, _, form, short⟩, spelled⟩
      exact ⟨⟨place + length.length, data⟩, _, [], (List.append_nil _).symm,
        ⟨length, form, short, rfl, rfl⟩, rfl, spelled⟩
  · cases found : Text.Utf8.decode? slice.bytes with
    | none =>
      refine (takes_throw _).congr fun place used value => ⟨False.elim, ?_⟩
      rintro ⟨-, ⟨⟩⟩
    | some text =>
      refine (takes_pure text).congr fun place used value => ⟨?_, ?_⟩
      · rintro ⟨rfl, rfl⟩
        exact ⟨rfl, rfl⟩
      · rintro ⟨rfl, ⟨⟩⟩
        exact ⟨rfl, rfl⟩

theorem takes_skip (maxLength : Nat) (wireType : WireType) :
    (skip maxLength wireType).Takes fun _ used data =>
      data = used ∧ ∃ place value, RawValue.Spells maxLength place wireType used value := by
  intro cursor data finish
  constructor
  · intro done
    unfold skip at done
    split at done
    · rename_i value after first
      cases done
      obtain ⟨used, rest, front, rfl, form⟩ := (takes_rawValue _ _ _ _ _).1 first
      exact ⟨used, rest, front, rfl, Cursor.upTo_past front, _, value, form⟩
    · cases done
  · rintro ⟨used, rest, front, rfl, rfl, place, value, form⟩
    obtain ⟨here, form'⟩ := form.exists_at cursor.offset
    simp only [skip, (takes_rawValue _ _ _ _ _).2 ⟨data, rest, front, rfl, form'⟩,
      Cursor.upTo_past front]

theorem takes_key : key.Takes fun _ used key => key.Spells used := by
  have takes : key.Takes _ :=
    takes_offset.bind fun start => takes_varint.bind fun n =>
      (?_ : Takes _ fun _ used key =>
        used = [] ∧ n = key.tag * 8 + key.wireType.id ∧ 1 ≤ key.tag ∧ key.tag ≤ maxTag)
  · refine takes.congr fun place used key => ⟨?_, fun form => ?_⟩
    · rintro ⟨_, _, _, rfl, ⟨rfl, rfl⟩, _, front, _, rfl, form, rfl, rfl, pos, le⟩
      exact ⟨by simpa using form, pos, le⟩
    · exact ⟨place, [], used, rfl, ⟨rfl, rfl⟩, _, used, [], by simp, form.number, rfl, rfl,
        form.pos, form.le⟩
  · by_cases outside : n / 8 = 0 ∨ maxTag < n / 8
    · simp only [splitKey, outside, if_true]
      refine (takes_throw _).congr fun place used key => ⟨False.elim, ?_⟩
      rintro ⟨_, rfl, pos, le⟩
      have small := key.wireType.id_lt
      omega
    · simp only [splitKey, outside, if_false]
      cases found : WireType.ofId? (n % 8) with
      | none =>
        refine (takes_throw _).congr fun place used key => ⟨False.elim, ?_⟩
        rintro ⟨_, rfl, -⟩
        have small := key.wireType.id_lt
        have last : (key.tag * 8 + key.wireType.id) % 8 = key.wireType.id := by omega
        rw [last, WireType.ofId?_eq_some_iff.2 rfl] at found
        cases found
      | some wireType =>
        have id := WireType.ofId?_eq_some_iff.1 found
        refine (takes_pure _).congr fun place used key => ⟨?_, ?_⟩
        · rintro ⟨rfl, rfl⟩
          exact ⟨rfl, by simp only; omega, by simp only; omega, by simp only; omega⟩
        · rintro ⟨rfl, rfl, pos, le⟩
          have small := key.wireType.id_lt
          have tag : (key.tag * 8 + key.wireType.id) / 8 = key.tag := by omega
          have last : (key.tag * 8 + key.wireType.id) % 8 = key.wireType.id := by omega
          rw [last, WireType.ofId?_eq_some_iff.2 rfl] at found
          cases found
          exact ⟨rfl, by rw [tag]⟩

end Read

/-- Some bytes at a place are a record: its key and a value of the wire type of the key. -/
structure Record.Spells (maxLength place : Nat) (bytes : List UInt8) (record : Record) : Prop where
  offset : record.offset = place
  raw : record.raw = bytes
  parts : ∃ key value, bytes = key ++ value ∧ record.key.Spells key ∧
    RawValue.Spells maxLength (place + key.length) record.key.wireType value record.value

namespace Record.Spells

variable {maxLength place : Nat} {bytes : List UInt8} {record : Record}

theorem pos (form : record.Spells maxLength place bytes) : 0 < bytes.length := by
  obtain ⟨key, value, rfl, key_form, -⟩ := form.parts
  have := key_form.number.pos
  simp only [List.length_append]
  omega

/-- The key of a record says how its value is laid out. -/
theorem wireType_eq (form : record.Spells maxLength place bytes) :
    record.key.wireType = record.value.wireType := by
  obtain ⟨-, -, key, value, -, -, value_form⟩ := form
  exact RawValue.wireType_of_spells value_form

/-- A record under a limit is one under any limit that is not less than the former or than the
record is long. -/
theorem of_min_le {other : Nat} (form : record.Spells maxLength place bytes)
    (le : min maxLength bytes.length ≤ other) : record.Spells other place bytes := by
  obtain ⟨offset, raw, key, value, rfl, key_form, value_form⟩ := form
  rw [List.length_append] at le
  refine ⟨offset, raw, key, value, rfl, key_form, ?_⟩
  generalize record.value = held at value_form
  generalize record.key.wireType = wireType at value_form
  cases value_form with
  | word form => exact .word form
  | payload form short =>
    rw [List.length_append] at le
    exact .payload form (by omega)

/-- A record with a payload is its key, a length within the limit and the payload. -/
theorem framed (form : record.Spells maxLength place bytes) {slice : Slice}
    (value : record.value = .payload slice) :
    ∃ key framed, bytes = key ++ framed ∧ record.key.Spells key ∧
      Payload maxLength framed slice.bytes := by
  obtain ⟨-, -, key, framed, same, key_form, value_form⟩ := form
  rw [value] at value_form
  generalize record.key.wireType = wireType at value_form
  cases value_form with
  | payload form short => exact ⟨key, _, same, key_form, .intro form short⟩

/-- The payload of a record is as short as the limit says and no longer than the record. -/
theorem payload_le (form : record.Spells maxLength place bytes) {slice : Slice}
    (value : record.value = .payload slice) :
    slice.bytes.length ≤ min maxLength bytes.length := by
  obtain ⟨key, framed, rfl, -, framed_form⟩ := form.framed value
  generalize slice.bytes = payload at framed_form
  cases framed_form with
  | intro form short =>
    simp only [List.length_append]
    omega

end Record.Spells

/-- A record is read exactly if it stands at the front of the buffer. -/
theorem nextRecord_eq_ok_iff {maxLength : Nat} {cursor finish : Cursor} {record : Record} :
    nextRecord maxLength cursor = .ok (record, finish) ↔
      ∃ used rest, cursor.rest = used ++ rest ∧ finish = cursor.past used rest ∧
        record.Spells maxLength cursor.offset used := by
  constructor
  · intro done
    unfold nextRecord at done
    split at done
    · cases done
    · rename_i key inner first
      obtain ⟨front, rest, here, rfl, form⟩ := (Read.takes_key _ _ _).1 first
      split at done
      · cases done
      · rename_i value after second
        cases done
        obtain ⟨back, rest', there, rfl, form'⟩ := (Read.takes_rawValue _ _ _ _ _).1 second
        rw [Cursor.rest_past] at there
        rw [Cursor.offset_past] at form'
        have front_back : cursor.rest = (front ++ back) ++ rest' := by
          rw [here, there, List.append_assoc]
        rw [Cursor.past_past]
        exact ⟨front ++ back, rest', front_back, rfl, rfl, Cursor.upTo_past front_back, front, back,
          rfl, form, form'⟩
  · rintro ⟨used, rest, here, rfl, place, raw, front, back, rfl, form, form'⟩
    have first : Read.key cursor = .ok record.key (cursor.past front (back ++ rest)) :=
      (Read.takes_key _ _ _).2 ⟨front, back ++ rest, by rw [here, List.append_assoc], rfl, form⟩
    have second : Read.rawValue maxLength record.key.wireType (cursor.past front (back ++ rest)) =
        .ok record.value (cursor.past (front ++ back) rest) :=
      (Read.takes_rawValue _ _ _ _ _).2
        ⟨back, rest, rfl, (Cursor.past_past ..).symm, by rwa [Cursor.offset_past]⟩
    simp only [nextRecord, first, second, Cursor.upTo_past here]
    rw [← place, ← raw]

/-- A buffer starts with a record in one way only, whatever the limit is. -/
theorem Record.Spells.unique {maxLength other place : Nat} {bytes bytes' rest rest' : List UInt8}
    {record record' : Record} (form : record.Spells maxLength place bytes)
    (form' : record'.Spells other place bytes') (same : bytes ++ rest = bytes' ++ rest') :
    record = record' ∧ bytes = bytes' := by
  have wide : record.Spells (max maxLength other) place bytes := form.of_min_le (by omega)
  have wide' : record'.Spells (max maxLength other) place bytes' := form'.of_min_le (by omega)
  have first : nextRecord (max maxLength other) ⟨place, 0, bytes ++ rest⟩ = .ok (record, _) :=
    nextRecord_eq_ok_iff.2 ⟨bytes, rest, rfl, rfl, wide⟩
  have second : nextRecord (max maxLength other) ⟨place, 0, bytes ++ rest⟩ = .ok (record', _) :=
    nextRecord_eq_ok_iff.2 ⟨bytes', rest', same, rfl, wide'⟩
  obtain ⟨rfl, left⟩ := Prod.mk.inj (Except.ok.inj (first.symm.trans second))
  obtain rfl : rest = rest' := congrArg Cursor.rest left
  exact ⟨rfl, List.append_cancel_right same⟩

/-- Some bytes at a place are a row of records. -/
inductive Record.Row (maxLength : Nat) : Nat → List UInt8 → List Record → Prop
  | nil {place : Nat} : Row maxLength place [] []
  | cons {place : Nat} {bytes rest : List UInt8} {record : Record} {records : List Record}
    (head : record.Spells maxLength place bytes)
    (tail : Row maxLength (place + bytes.length) rest records) :
    Row maxLength place (bytes ++ rest) (record :: records)

/-- Some bytes are records, back to back. -/
def AreRecords (bytes : List UInt8) : Prop :=
  ∃ (maxLength : Nat) (records : List Record), Record.Row maxLength 0 bytes records

/-- Some bytes are a record with a tag. -/
def IsRecordOf (tag : Nat) (bytes : List UInt8) : Prop :=
  ∃ (maxLength : Nat) (record : Record), record.Spells maxLength 0 bytes ∧ record.key.tag = tag

/-- Taking a buffer apart reaches its end exactly if the buffer is a row of records. -/
theorem split_eq_none_iff {maxLength : Nat} {cursor : Cursor} {records : List Record} :
    split maxLength cursor = (records, none) ↔
      Record.Row maxLength cursor.offset cursor.rest records := by
  constructor
  · intro done
    fun_induction split maxLength cursor generalizing records with
    | case1 cursor ended =>
      cases done
      rw [List.isEmpty_iff.1 ended]
      exact .nil
    | case2 cursor more broken found => cases done
    | case3 cursor more record finish found rest broken again ih =>
      cases done
      obtain ⟨used, left, here, rfl, form⟩ := nextRecord_eq_ok_iff.1 found
      rw [here]
      refine .cons form ?_
      have tail := ih again
      rwa [Cursor.offset_past] at tail
  · intro row
    generalize place : cursor.offset = start at row
    generalize left : cursor.rest = bytes at row
    induction row generalizing cursor with
    | nil =>
      unfold split
      simp [left]
    | @cons start used rest record records form tail ih =>
      subst place
      have read : nextRecord maxLength cursor = .ok (record, cursor.past used rest) :=
        nextRecord_eq_ok_iff.2 ⟨used, rest, left, rfl, form⟩
      have more : cursor.rest.isEmpty = false := by
        have := form.pos
        rw [left]
        cases used with
        | nil => simp at this
        | cons => rfl
      have again : split maxLength (cursor.past used rest) = (records, none) :=
        ih (Cursor.offset_past ..) rfl
      unfold split
      rw [if_neg (by simp [more])]
      split
      · rename_i broken found
        rw [read] at found
        cases found
      · rename_i record' finish found
        rw [read] at found
        cases found
        rw [again]

/-- The records that a buffer is taken apart into are a row at its front, whatever stops the taking
apart. -/
theorem row_of_split {maxLength : Nat} {cursor : Cursor} {records : List Record}
    {broken : Option Break} (parts : split maxLength cursor = (records, broken)) :
    ∃ used rest, cursor.rest = used ++ rest ∧
      Record.Row maxLength cursor.offset used records := by
  fun_induction split maxLength cursor generalizing records broken with
  | case1 cursor ended =>
    cases parts
    exact ⟨[], cursor.rest, rfl, .nil⟩
  | case2 cursor more fault found =>
    cases parts
    exact ⟨[], cursor.rest, rfl, .nil⟩
  | case3 cursor more record finish found rest fault again ih =>
    cases parts
    obtain ⟨front, left, here, rfl, form⟩ := nextRecord_eq_ok_iff.1 found
    obtain ⟨used, left', there, row⟩ := ih again
    rw [Cursor.rest_past] at there
    rw [Cursor.offset_past] at row
    exact ⟨front ++ used, left', by rw [here, there, List.append_assoc], .cons form row⟩

/-! ## Rows at other places -/

/-- A value moved further back in the outermost input. -/
def RawValue.shift (distance : Nat) : RawValue → RawValue
  | .word layout n => .word layout n
  | .payload slice => .payload ⟨slice.offset + distance, slice.bytes⟩

/-- A record moved further back in the outermost input. -/
def Record.shift (distance : Nat) (record : Record) : Record :=
  { record with offset := record.offset + distance, value := record.value.shift distance }

@[simp] theorem Record.key_shift (distance : Nat) (record : Record) :
    (record.shift distance).key = record.key := rfl

@[simp] theorem Record.value_shift (distance : Nat) (record : Record) :
    (record.shift distance).value = record.value.shift distance := rfl

@[simp] theorem Record.keep_shift (distance : Nat) (record : Record) :
    (record.shift distance).keep = record.keep := rfl

/-- A value moved to the start of the outermost input. -/
def RawValue.atStart : RawValue → RawValue
  | .word layout n => .word layout n
  | .payload slice => .payload ⟨0, slice.bytes⟩

@[simp] theorem RawValue.atStart_shift (distance : Nat) (value : RawValue) :
    (value.shift distance).atStart = value.atStart := by
  cases value <;> rfl

/-- A value stands at a place exactly if, moved, it stands further back. -/
theorem RawValue.spells_shift_iff {maxLength place distance : Nat} {wireType : WireType}
    {bytes : List UInt8} {value : RawValue} :
    Spells maxLength (place + distance) wireType bytes value ↔
      ∃ here, Spells maxLength place wireType bytes here ∧ value = here.shift distance := by
  constructor
  · intro form
    cases form with
    | word form => exact ⟨_, .word form, rfl⟩
    | @payload length payload form short =>
      refine ⟨_, .payload form short, ?_⟩
      simp only [shift, Nat.add_right_comm]
  · rintro ⟨here, form, rfl⟩
    cases form with
    | word form => exact .word form
    | @payload length payload form short =>
      have moved : Spells maxLength (place + distance) .lengthDelimited (length ++ payload)
          (.payload ⟨place + distance + length.length, payload⟩) := .payload form short
      rwa [Nat.add_right_comm] at moved

/-- A record stands at a place exactly if, moved, it stands further back. -/
theorem Record.spells_shift_iff {maxLength place distance : Nat} {bytes : List UInt8}
    {record : Record} :
    record.Spells maxLength (place + distance) bytes ↔
      ∃ here : Record, here.Spells maxLength place bytes ∧ record = here.shift distance := by
  constructor
  · rintro ⟨offset, raw, key, value, split, form, form'⟩
    rw [Nat.add_right_comm] at form'
    obtain ⟨here, form', same⟩ := RawValue.spells_shift_iff.1 form'
    refine ⟨⟨place, record.key, here, bytes⟩, ⟨rfl, rfl, key, value, split, form, form'⟩, ?_⟩
    cases record
    simp only [shift, Record.mk.injEq, true_and]
    exact ⟨offset, same, raw⟩
  · rintro ⟨here, ⟨offset, raw, key, value, split, form, form'⟩, rfl⟩
    refine ⟨by simp only [shift, offset], raw, key, value, split, form, ?_⟩
    rw [Nat.add_right_comm]
    exact RawValue.spells_shift_iff.2 ⟨here.value, form', rfl⟩

/-- The field is one record, as it was read, and nothing else. -/
def UnknownField.IsRecord (field : UnknownField) : Prop :=
  ∃ (maxLength : Nat) (record : Record), record.Spells maxLength 0 field.raw ∧ record.keep = field

/-- A record that was read anywhere is kept as one record. -/
theorem Record.Spells.isRecord_keep {maxLength place : Nat} {bytes : List UInt8}
    {record : Record} (form : record.Spells maxLength place bytes) : record.keep.IsRecord := by
  rw [← Nat.zero_add place] at form
  obtain ⟨here, form, rfl⟩ := Record.spells_shift_iff.1 form
  exact ⟨maxLength, here, by rwa [Record.keep, form.raw], rfl⟩

namespace Record.Row

variable {maxLength place distance : Nat} {bytes more : List UInt8} {records others : List Record}

theorem append (row : Row maxLength place bytes records)
    (row' : Row maxLength (place + bytes.length) more others) :
    Row maxLength place (bytes ++ more) (records ++ others) := by
  induction row with
  | nil => simpa using row'
  | @cons place bytes rest record records head tail ih =>
    rw [List.append_assoc]
    refine .cons head (ih ?_)
    rwa [List.length_append, ← Nat.add_assoc] at row'

theorem singleton {record : Record} (form : record.Spells maxLength place bytes) :
    Row maxLength place bytes [record] := by
  rw [← List.append_nil bytes]
  exact .cons form .nil

/-- A row of one record is this record. -/
theorem singleton_iff {record : Record} :
    Row maxLength place bytes [record] ↔ record.Spells maxLength place bytes := by
  refine ⟨fun row => ?_, singleton⟩
  cases row with
  | cons head tail =>
    cases tail
    rwa [List.append_nil]

theorem areRecords (row : Row maxLength 0 bytes records) : AreRecords bytes :=
  ⟨maxLength, records, row⟩

theorem shift (row : Row maxLength place bytes records) (distance : Nat) :
    Row maxLength (place + distance) bytes (records.map (·.shift distance)) := by
  induction row with
  | nil => exact .nil
  | cons head tail ih =>
    rw [Nat.add_right_comm] at ih
    exact .cons (Record.spells_shift_iff.2 ⟨_, head, rfl⟩) ih

/-- A row further back is the row at a place, moved. -/
theorem of_shift (row : Row maxLength (place + distance) bytes records) :
    ∃ here, Row maxLength place bytes here ∧ records = here.map (·.shift distance) := by
  generalize start : place + distance = back at row
  induction row generalizing place with
  | nil => exact ⟨[], .nil, rfl⟩
  | cons head tail ih =>
    subst start
    obtain ⟨first, here, rfl⟩ := Record.spells_shift_iff.1 head
    obtain ⟨rest, row, rfl⟩ := ih (Nat.add_right_comm ..)
    exact ⟨first :: rest, .cons here row, rfl⟩

/-- A buffer is a row of records in one way only. -/
theorem unique (row : Row maxLength place bytes records) (row' : Row maxLength place bytes others) :
    records = others := by
  have left : split maxLength ⟨place, 0, bytes⟩ = (records, none) := split_eq_none_iff.2 row
  have right : split maxLength ⟨place, 0, bytes⟩ = (others, none) := split_eq_none_iff.2 row'
  rw [right] at left
  cases left
  rfl

/-- The records at the front of a row are a row, and so are those behind them. -/
theorem of_append (row : Row maxLength place bytes (records ++ others)) :
    ∃ used rest, bytes = used ++ rest ∧ Row maxLength place used records ∧
      Row maxLength (place + used.length) rest others := by
  induction records generalizing place bytes with
  | nil => exact ⟨[], bytes, rfl, .nil, row⟩
  | cons record records ih =>
    cases row with
    | @cons _ first rest _ _ head tail =>
      obtain ⟨used, rest, rfl, front, back⟩ := ih tail
      rw [Nat.add_assoc, ← List.length_append] at back
      exact ⟨first ++ used, rest, (List.append_assoc ..).symm, .cons head front, back⟩

/-- A record of a row stands somewhere among its bytes. -/
theorem exists_part_of_mem (row : Row maxLength place bytes records) {record : Record}
    (held : record ∈ records) :
    ∃ front part back, bytes = front ++ part ++ back ∧
      record.Spells maxLength (place + front.length) part := by
  obtain ⟨before, after, rfl⟩ := List.append_of_mem held
  obtain ⟨front, rest, rfl, -, second⟩ := row.of_append
  cases second with
  | @cons _ part back _ _ head tail =>
    exact ⟨front, part, back, (List.append_assoc ..).symm, head⟩

theorem spells_of_mem (row : Row maxLength place bytes records) {record : Record}
    (held : record ∈ records) : ∃ start part, record.Spells maxLength start part := by
  obtain ⟨front, part, back, -, form⟩ := row.exists_part_of_mem held
  exact ⟨_, part, form⟩

/-- The records of a row are the bytes of the row. -/
theorem flatMap_raw (row : Row maxLength place bytes records) :
    records.flatMap (·.raw) = bytes := by
  induction row with
  | nil => rfl
  | cons head tail ih => rw [List.flatMap_cons, head.raw, ih]

theorem length_raw_le (row : Row maxLength place bytes records) {record : Record}
    (held : record ∈ records) : record.raw.length ≤ bytes.length := by
  rw [← row.flatMap_raw]
  exact (List.sublist_flatten_of_mem (List.mem_map_of_mem held)).length_le

/-- A row under a limit is one under any limit that is not less than the former or than the row is
long. -/
theorem of_min_le {other : Nat} (row : Row maxLength place bytes records)
    (le : min maxLength bytes.length ≤ other) : Row other place bytes records := by
  induction row with
  | nil => exact .nil
  | cons head tail ih =>
    rw [List.length_append] at le
    exact .cons (head.of_min_le (by omega)) (ih (by omega))

/-- A row that starts with the bytes of a row under any limit starts with its records. -/
theorem of_prefix {other : Nat} (row : Row maxLength place (bytes ++ more) records)
    (front : Row other place bytes others) :
    ∃ back, records = others ++ back ∧ Row maxLength place bytes others ∧
      Row maxLength (place + bytes.length) more back := by
  induction front generalizing records with
  | nil => exact ⟨records, rfl, .nil, row⟩
  | @cons place first rest record others head tail ih =>
    rw [List.append_assoc] at row
    generalize whole : first ++ (rest ++ more) = buffer at row
    cases row with
    | nil =>
      have := head.pos
      have := congrArg List.length whole
      simp only [List.length_append, List.length_nil] at this
      omega
    | @cons _ first' rest' record' records' head' tail' =>
      obtain ⟨rfl, rfl⟩ := head.unique head' whole
      obtain ⟨back, rfl, front, after⟩ := ih (List.append_cancel_left whole ▸ tail')
      rw [Nat.add_assoc, ← List.length_append] at after
      exact ⟨back, rfl, .cons head' front, after⟩

end Record.Row

/-- Records with records behind them are records, under the wider one of two limits. -/
theorem AreRecords.append {bytes more : List UInt8} (whole : AreRecords bytes)
    (whole' : AreRecords more) : AreRecords (bytes ++ more) := by
  obtain ⟨maxLength, records, row⟩ := whole
  obtain ⟨other, others, row'⟩ := whole'
  have wide : Record.Row (max maxLength other) 0 bytes records := row.of_min_le (by omega)
  have wide' : Record.Row (max maxLength other) 0 more others := row'.of_min_le (by omega)
  exact (wide.append (wide'.shift bytes.length)).areRecords

/-- Some bytes are records exactly if, under some limit, they can be taken apart up to their end. -/
theorem areRecords_iff {bytes : List UInt8} :
    AreRecords bytes ↔
      ∃ maxLength records, split maxLength (.ofSlice ⟨0, bytes⟩) = (records, none) := by
  simp only [split_eq_none_iff]
  rfl

/-- Some bytes are a record with a tag exactly if, under some limit, taking them apart gives such a
record and nothing else. -/
theorem isRecordOf_iff {tag : Nat} {bytes : List UInt8} :
    IsRecordOf tag bytes ↔
      ∃ maxLength record, split maxLength (.ofSlice ⟨0, bytes⟩) = ([record], none) ∧
        record.key.tag = tag := by
  simp only [split_eq_none_iff, Record.Row.singleton_iff]
  rfl

end Protobuf.Wire
