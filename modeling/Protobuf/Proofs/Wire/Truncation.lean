import Protobuf.Proofs.Wire.Limit

/-! # Buffers that end too early

A value whose last bytes are missing cannot be read: each read knows from the bytes it has that
more of them have to follow, and never takes a part for the whole. Main statements: a record that
was cut is not read, `Record.Spells.nextRecord_take`, and a place in a row of records is an end of
one of them or lies within one, `Record.Row.ends_or_cuts`. -/

namespace Protobuf.Wire

/-- Bytes are missing, which shows at a place or in front of it. -/
inductive Error.IsCut (place : Nat) : Error → Prop
  | malformedVarint {offset : Nat} (le : offset ≤ place) : IsCut place (.malformedVarint offset)
  | truncated {offset needed remaining : Nat} (le : offset ≤ place) :
    IsCut place (.truncated offset needed remaining)

/-- The digits of a number without the last of them are no number. -/
theorem Varint.Spells.decodeWithin_take {room n count : Nat} {bytes : List UInt8}
    (form : Spells room bytes n) (short : count < bytes.length) :
    Varint.decodeWithin room (bytes.take count) = none := by
  induction form generalizing count with
  | last =>
    obtain rfl : count = 0 := by simpa using short
    rfl
  | @more room b rest high large tail ih =>
    cases count with
    | zero => rfl
    | succ count =>
      have inner := ih (Nat.lt_of_succ_lt_succ short)
      have digit : ¬b.toNat < 128 := Nat.not_lt.2 large
      simp only [List.take_succ_cons, Varint.decodeWithin, digit, if_false, inner, ite_self]

/-- A read notices when the last of the bytes it takes are missing. -/
def Read.Misses {α : Type} (read : Read α) (bytes : List UInt8) : Prop :=
  ∀ cursor count, count < bytes.length → cursor.rest = bytes.take count →
    ∃ error finish, read cursor = .error error finish ∧ error.IsCut (cursor.offset + count)

namespace Read

variable {α β : Type} {read : Read α} {bytes : List UInt8} {maxLength : Nat}

theorem misses_varint {n : Nat} (form : Varint.Spells Varint.maxBytes bytes n) :
    varint.Misses bytes := by
  intro cursor count short left
  have none : Varint.decode cursor.rest = none := left ▸ form.decodeWithin_take short
  refine ⟨.malformedVarint cursor.offset, cursor, ?_, .malformedVarint (Nat.le_add_right ..)⟩
  simp only [varint, none]

theorem misses_bytes {width : Nat} (length : bytes.length = width) :
    (Read.bytes width).Misses bytes := by
  intro cursor count short left
  have missing : ¬width ≤ cursor.rest.length := by
    rw [left, List.length_take]
    omega
  refine ⟨.truncated cursor.offset width cursor.rest.length, cursor, ?_,
    .truncated (Nat.le_add_right ..)⟩
  simp only [Read.bytes, missing, if_false]

theorem Misses.map (misses : read.Misses bytes) (f : α → β) : Misses (f <$> read) bytes := by
  intro cursor count short left
  obtain ⟨error, finish, failed, cut⟩ := misses cursor count short left
  refine ⟨error, finish, ?_, cut⟩
  simp only [Functor.map, EStateM.map, failed]

theorem misses_word {layout : Word} {n : Nat} (form : layout.Spells bytes n) :
    (word layout).Misses bytes := by
  cases form with
  | varint form => exact misses_varint form
  | fixed64 width => exact (misses_bytes width).map littleEndian
  | fixed32 width => exact (misses_bytes width).map littleEndian

/-- A payload is missed as soon as its length, or a byte behind it, is. -/
theorem misses_payload {length payload : List UInt8}
    (form : Varint.Spells Varint.maxBytes length payload.length)
    (short : payload.length ≤ maxLength) :
    (Read.payload maxLength).Misses (length ++ payload) := by
  intro cursor count missing left
  simp only [Read.payload, Bind.bind, EStateM.bind, offset]
  by_cases within : count < length.length
  · have front : cursor.rest = length.take count := by
      rw [left, List.take_append_of_le_length (Nat.le_of_lt within)]
    obtain ⟨error, finish, failed, cut⟩ := misses_varint form cursor count within front
    exact ⟨error, finish, by simp only [failed], cut⟩
  · have behind : length.length ≤ count := Nat.not_lt.1 within
    have front : cursor.rest = length ++ payload.take (count - length.length) := by
      rw [left, List.take_append, List.take_of_length_le behind]
    have read : varint cursor = .ok payload.length (cursor.past length _) :=
      (takes_varint _ _ _).2 ⟨length, _, front, rfl, form⟩
    rw [List.length_append] at missing
    obtain ⟨error, finish, failed, cut⟩ :=
      misses_bytes rfl (cursor.past length (payload.take (count - length.length)))
        (count - length.length) (by omega) rfl
    refine ⟨error, finish, ?_, ?_⟩
    · simp only [read, Nat.not_lt.2 short, if_false, EStateM.bind, offset, failed]
    · rwa [Cursor.offset_past, Nat.add_assoc, Nat.add_sub_cancel' behind] at cut

theorem misses_rawValue {place : Nat} {wireType : WireType} {raw : RawValue}
    (form : RawValue.Spells maxLength place wireType bytes raw) :
    (rawValue maxLength wireType).Misses bytes := by
  cases form with
  | @word layout bytes n form =>
    cases layout with
    | varint | fixed64 | fixed32 => exact (misses_word form).map _
  | payload form short => exact (misses_payload form short).map _

theorem misses_key {key : Key} (form : key.Spells bytes) : Read.key.Misses bytes := by
  intro cursor count short left
  obtain ⟨error, finish, failed, cut⟩ := misses_varint form.number cursor count short left
  refine ⟨error, finish, ?_, cut⟩
  simp only [Read.key, Bind.bind, EStateM.bind, offset, failed]

end Read

/-- A record that was cut is not read: its key shows it or, behind the whole key, its value. -/
theorem Record.Spells.nextRecord_take {maxLength count : Nat} {bytes : List UInt8} {record : Record}
    {cursor : Cursor} (form : record.Spells maxLength cursor.offset bytes)
    (short : count < bytes.length) (left : cursor.rest = bytes.take count) :
    ∃ error : Error, error.IsCut (cursor.offset + count) ∧
      (nextRecord maxLength cursor = .error (.key error) ∨
        nextRecord maxLength cursor = .error (.value cursor.offset record.key error)) := by
  obtain ⟨-, -, key, value, rfl, start, value_form⟩ := form
  by_cases within : count < key.length
  · have front : cursor.rest = key.take count := by
      rw [left, List.take_append_of_le_length (Nat.le_of_lt within)]
    obtain ⟨error, finish, failed, cut⟩ := Read.misses_key start cursor count within front
    exact ⟨error, cut, .inl (by simp only [nextRecord, failed])⟩
  · have behind : key.length ≤ count := Nat.not_lt.1 within
    have front : cursor.rest = key ++ value.take (count - key.length) := by
      rw [left, List.take_append, List.take_of_length_le behind]
    have read : Read.key cursor = .ok record.key (cursor.past key _) :=
      (Read.takes_key _ _ _).2 ⟨key, _, front, rfl, start⟩
    rw [List.length_append] at short
    obtain ⟨error, finish, failed, cut⟩ := Read.misses_rawValue value_form
      (cursor.past key (value.take (count - key.length))) (count - key.length) (by omega) rfl
    rw [Cursor.offset_past, Nat.add_assoc, Nat.add_sub_cancel' behind] at cut
    exact ⟨error, cut, .inr (by simp only [nextRecord, read, failed])⟩

/-- The records at the front of a buffer are the first ones it is taken apart into. -/
theorem split_of_row {maxLength : Nat} {used rest : List UInt8} {records : List Record}
    {cursor : Cursor} (row : Record.Row maxLength cursor.offset used records)
    (front : cursor.rest = used ++ rest) :
    split maxLength cursor = (records ++ (split maxLength (cursor.past used rest)).1,
      (split maxLength (cursor.past used rest)).2) := by
  generalize place : cursor.offset = start at row
  induction row generalizing cursor with
  | nil =>
    have same : cursor.past [] rest = cursor := by
      simp [Cursor.past, ← front.trans (List.nil_append rest)]
    simp only [List.nil_append, same]
  | @cons start first more record records head tail ih =>
    subst place
    rw [List.append_assoc] at front
    have read : nextRecord maxLength cursor = .ok (record, cursor.past first (more ++ rest)) :=
      nextRecord_eq_ok_iff.2 ⟨first, more ++ rest, front, rfl, head⟩
    rw [split_of_ok read, ih rfl (Cursor.offset_past ..), Cursor.past_past]
    rfl

/-- One of the records that some bytes are, back to back, ends at a place. -/
def EndsRecord (bytes : List UInt8) (place : Nat) : Prop :=
  ∃ maxLength records, Record.Row maxLength 0 bytes records ∧
    ∃ record ∈ records, record.offset + record.raw.length = place

/-- Bytes are records in one way only, so that their ends are those of any row they are. -/
theorem Record.Row.endsRecord_iff {maxLength place : Nat} {bytes : List UInt8}
    {records : List Record} (row : Record.Row maxLength 0 bytes records) :
    EndsRecord bytes place ↔ ∃ record ∈ records, record.offset + record.raw.length = place := by
  constructor
  · rintro ⟨other, others, row', ends⟩
    rw [← List.append_nil bytes] at row
    obtain ⟨-, -, row', -⟩ := row.of_prefix row'
    rw [List.append_nil] at row
    exact row.unique row' ▸ ends
  · exact fun ends => ⟨maxLength, records, row, ends⟩

/-- A place in a row of records is its start, an end of one of them, or lies within one: then the
records in front of that one and a part of it stand before the place. -/
theorem Record.Row.ends_or_cuts {maxLength place count : Nat} {bytes : List UInt8}
    {records : List Record} (row : Record.Row maxLength place bytes records)
    (le : count ≤ bytes.length) :
    count = 0 ∨ (∃ record ∈ records, record.offset + record.raw.length = place + count) ∨
      ∃ front record back used part more, records = front ++ record :: back ∧
        Record.Row maxLength place used front ∧
        record.Spells maxLength (place + used.length) part ∧ 0 < more ∧ more < part.length ∧
        bytes.take count = used ++ part.take more ∧ count = used.length + more := by
  induction row generalizing count with
  | nil => exact .inl (Nat.le_zero.1 le)
  | @cons place first rest record records head tail ih =>
    rw [List.length_append] at le
    rcases Nat.eq_zero_or_pos count with zero | pos
    · exact .inl zero
    rcases Nat.lt_or_ge count first.length with within | behind
    · refine .inr (.inr ⟨[], record, records, [], first, count, rfl, .nil, head, pos, within, ?_,
        ?_⟩)
      · rw [List.nil_append, List.take_append_of_le_length (Nat.le_of_lt within)]
      · exact (Nat.zero_add _).symm
    · have split : (first ++ rest).take count = first ++ rest.take (count - first.length) := by
        rw [List.take_append, List.take_of_length_le behind]
      rcases ih (show count - first.length ≤ rest.length by omega) with zero | ⟨other, held, ends⟩ |
        ⟨front, cut, back, used, part, more, rfl, row, form, pos, short, taken, same⟩
      · refine .inr (.inl ⟨record, List.mem_cons_self, ?_⟩)
        rw [head.offset, head.raw]
        omega
      · exact .inr (.inl ⟨other, List.mem_cons_of_mem _ held, by omega⟩)
      · rw [Nat.add_assoc, ← List.length_append] at form
        refine .inr (.inr ⟨record :: front, cut, back, first ++ used, part, more, rfl,
          .cons head row, form, pos, short, ?_, ?_⟩)
        · rw [split, taken, List.append_assoc]
        · rw [List.length_append]
          omega

/-- In front of the end of a record of a row stand this record and those before it. -/
theorem Record.Row.exists_take_of_mem {maxLength place count : Nat} {bytes : List UInt8}
    {records : List Record} (row : Record.Row maxLength place bytes records) {record : Record}
    (held : record ∈ records) (ends : record.offset + record.raw.length = place + count) :
    ∃ front back, records = front ++ back ∧
      Record.Row maxLength place (bytes.take count) front := by
  obtain ⟨before, after, rfl⟩ := List.append_of_mem held
  obtain ⟨used, rest, rfl, first, second⟩ := row.of_append
  cases second with
  | @cons _ part more _ _ head tail =>
    rw [head.offset, head.raw] at ends
    have whole : (used ++ (part ++ more)).take count = used ++ part := by
      rw [← List.append_assoc]
      exact List.take_left' (by rw [List.length_append]; omega)
    rw [whole]
    exact ⟨before ++ [record], after, by simp, first.append (.singleton head)⟩

end Protobuf.Wire
