import Protobuf.Proofs.Wire.Limit
import Protobuf.Proofs.Wire.Run

/-! # Places in the outermost input

A buffer that stands further back is read alike: whatever comes of it, and every fault, stands
further back by as much. And every fault of a buffer lies within the buffer, no further in front
than the read that failed. Main statements: `split_shift` and `split_spans`.

## Implementation notes

Payloads keep the place where they stand, so what moves is not only the faults but records and
slices as well. A read of several parts names the place where it started also when a later part
fails, so `Read.FailsFrom` has a place that may lie in front of the cursor. -/

namespace Protobuf.Wire

/-! ## Moving -/

/-- A slice moved further back in the outermost input. -/
def Slice.shift (distance : Nat) (slice : Slice) : Slice :=
  ⟨slice.offset + distance, slice.bytes⟩

/-- A fault moved further back in the outermost input. -/
def Error.shift (distance : Nat) : Error → Error
  | .malformedVarint offset => .malformedVarint (offset + distance)
  | .truncated offset needed remaining => .truncated (offset + distance) needed remaining
  | .limitExceeded offset what limit actual => .limitExceeded (offset + distance) what limit actual
  | .invalidTag offset key => .invalidTag (offset + distance) key
  | .unsupportedWireType offset wireType => .unsupportedWireType (offset + distance) wireType
  | .invalidUtf8 offset => .invalidUtf8 (offset + distance)

/-- A break moved further back in the outermost input. -/
def Break.shift (distance : Nat) : Break → Break
  | .key error => .key (error.shift distance)
  | .value offset found error => .value (offset + distance) found (error.shift distance)

/-- A cursor in a buffer that stands further back in the outermost input. -/
def Cursor.shift (distance : Nat) (cursor : Cursor) : Cursor :=
  { cursor with base := cursor.base + distance }

@[simp] theorem Error.offset_shift (distance : Nat) (error : Error) :
    (error.shift distance).offset = error.offset + distance := by
  cases error <;> rfl

@[simp] theorem Cursor.rest_shift (distance : Nat) (cursor : Cursor) :
    (cursor.shift distance).rest = cursor.rest := rfl

@[simp] theorem Cursor.offset_shift (distance : Nat) (cursor : Cursor) :
    (cursor.shift distance).offset = cursor.offset + distance := by
  simp only [Cursor.offset, shift]
  omega

theorem Cursor.ofSlice_shift (distance : Nat) (slice : Slice) :
    Cursor.ofSlice (slice.shift distance) = (Cursor.ofSlice slice).shift distance := rfl

/-- The outcome of a read, moved further back, where `move` moves the value. -/
def Read.shiftResult {α : Type} (move : α → α) (distance : Nat) :
    EStateM.Result Error Cursor α → EStateM.Result Error Cursor α
  | .ok value finish => .ok (move value) (finish.shift distance)
  | .error error finish => .error (error.shift distance) (finish.shift distance)

/-- What a read comes to moves with the buffer. -/
def Read.Moves {α : Type} (read : Read α) (move : Nat → α → α) : Prop :=
  ∀ distance cursor,
    read (cursor.shift distance) = shiftResult (move distance) distance (read cursor)

namespace Read

variable {α β : Type} {read : Read α}

theorem moves_bytes (count : Nat) : (bytes count).Moves fun _ data => data := by
  intro distance cursor
  simp only [bytes, Cursor.rest_shift, Cursor.offset_shift]
  split <;> rfl

theorem moves_varint : varint.Moves fun _ n => n := by
  intro distance cursor
  simp only [varint, Cursor.rest_shift, Cursor.offset_shift]
  split <;> rfl

theorem Moves.map {move : Nat → α → α} {move' : Nat → β → β} (moves : read.Moves move) (f : α → β)
    (commutes : ∀ distance a, f (move distance a) = move' distance (f a)) :
    Moves (f <$> read) move' := by
  intro distance cursor
  simp only [Functor.map, EStateM.map, moves distance cursor]
  cases read cursor with
  | error error finish => rfl
  | ok a finish => simp only [shiftResult, commutes]

theorem moves_word (layout : Word) : (word layout).Moves fun _ n => n := by
  cases layout with
  | varint => exact moves_varint
  | fixed64 => exact (moves_bytes 8).map littleEndian fun _ _ => rfl
  | fixed32 => exact (moves_bytes 4).map littleEndian fun _ _ => rfl

theorem moves_payload (maxLength : Nat) : (payload maxLength).Moves Slice.shift := by
  intro distance cursor
  simp only [payload, Bind.bind, EStateM.bind, offset, moves_varint distance cursor]
  cases varint cursor with
  | error error finish => rfl
  | ok length finish =>
    simp only [shiftResult]
    by_cases tooLong : maxLength < length
    · simp only [tooLong, if_true, Cursor.offset_shift]
      rfl
    · simp only [tooLong, if_false, EStateM.bind, offset, moves_bytes length distance finish]
      cases bytes length finish with
      | error error after => rfl
      | ok data after =>
        simp only [shiftResult, Cursor.offset_shift]
        rfl

theorem moves_rawValue (maxLength : Nat) (wireType : WireType) :
    (rawValue maxLength wireType).Moves RawValue.shift := by
  cases wireType with
  | varint => exact (moves_word .varint).map _ fun _ _ => rfl
  | fixed64 => exact (moves_word .fixed64).map _ fun _ _ => rfl
  | fixed32 => exact (moves_word .fixed32).map _ fun _ _ => rfl
  | lengthDelimited => exact (moves_payload maxLength).map _ fun _ _ => rfl

theorem moves_key : key.Moves fun _ key => key := by
  intro distance cursor
  simp only [key, Bind.bind, EStateM.bind, offset, moves_varint distance cursor]
  cases varint cursor with
  | error error finish => rfl
  | ok n finish =>
    simp only [shiftResult, Cursor.offset_shift]
    by_cases outside : (splitKey n).1 = 0 ∨ maxTag < (splitKey n).1
    · simp only [outside, if_true]
      rfl
    · simp only [outside, if_false]
      cases WireType.ofId? (splitKey n).2 <;> rfl

end Read

/-- The next record moves with the buffer. -/
theorem nextRecord_shift (maxLength distance : Nat) (cursor : Cursor) :
    nextRecord maxLength (cursor.shift distance) =
      match nextRecord maxLength cursor with
      | .error broken => .error (broken.shift distance)
      | .ok (record, finish) => .ok (record.shift distance, finish.shift distance) := by
  simp only [nextRecord, Read.moves_key distance cursor]
  cases Read.key cursor with
  | error error finish => rfl
  | ok key inner =>
    simp only [Read.shiftResult, Read.moves_rawValue maxLength key.wireType distance inner,
      Cursor.offset_shift]
    cases Read.rawValue maxLength key.wireType inner <;> rfl

/-- What a buffer is taken apart into moves with the buffer. -/
theorem split_shift (maxLength distance : Nat) (cursor : Cursor) :
    split maxLength (cursor.shift distance) =
      ((split maxLength cursor).1.map (·.shift distance),
        (split maxLength cursor).2.map (·.shift distance)) := by
  fun_induction split maxLength cursor with
  | case1 cursor ended =>
    unfold split
    rw [if_pos (by exact ended)]
    rfl
  | case2 cursor more broken found =>
    have moved := nextRecord_shift maxLength distance cursor
    rw [found] at moved
    rw [split_of_error (by simpa using more) moved]
    rfl
  | case3 cursor more record finish found rest broken again ih =>
    have moved := nextRecord_shift maxLength distance cursor
    rw [found] at moved
    rw [split_of_ok moved, ih, again]
    rfl

theorem readRun_of_error {layout : Word} {cursor after : Cursor} {error : Error}
    (more : cursor.rest.isEmpty = false) (found : Read.word layout cursor = .error error after) :
    readRun layout cursor = .error error := by
  unfold readRun
  rw [if_neg (by simp [more])]
  split
  · rename_i error' after' found'
    rw [found] at found'
    cases found'
    rfl
  · rename_i n finish found'
    rw [found] at found'
    cases found'

theorem readRun_of_ok {layout : Word} {cursor finish : Cursor} {n : Nat}
    (found : Read.word layout cursor = .ok n finish) :
    readRun layout cursor = (n :: ·) <$> readRun layout finish := by
  have more : cursor.rest.isEmpty = false := by
    have shorter := Read.word_lt found
    cases left : cursor.rest with
    | nil => simp [left] at shorter
    | cons => rfl
  rw [readRun, if_neg (by simp [more])]
  split
  · rename_i error after found'
    rw [found] at found'
    cases found'
  · rename_i n' finish' found'
    rw [found] at found'
    cases found'
    cases readRun layout finish <;> rfl

/-- The numbers of a run do not move, and its faults do. -/
theorem readRun_shift (layout : Word) (distance : Nat) (cursor : Cursor) :
    readRun layout (cursor.shift distance) =
      (readRun layout cursor).mapError (·.shift distance) := by
  fun_induction readRun layout cursor with
  | case1 cursor ended =>
    unfold readRun
    rw [if_pos (by exact ended)]
    rfl
  | case2 cursor more error after found =>
    have moved := Read.moves_word layout distance cursor
    rw [found] at moved
    rw [readRun_of_error (by simpa using more) moved]
    rfl
  | case3 cursor more n finish found error again ih =>
    have moved := Read.moves_word layout distance cursor
    rw [found] at moved
    rw [readRun_of_ok moved, ih, again]
    rfl
  | case4 cursor more n finish found rest again ih =>
    have moved := Read.moves_word layout distance cursor
    rw [found] at moved
    rw [readRun_of_ok moved, ih, again]
    rfl

/-! ## Faults within a buffer -/

/-- Where a slice ends in the outermost input. -/
def Slice.stop (slice : Slice) : Nat :=
  slice.offset + slice.bytes.length

/-- Where the buffer of a cursor ends in the outermost input. -/
def Cursor.stop (cursor : Cursor) : Nat :=
  cursor.offset + cursor.rest.length

theorem Cursor.stop_past {cursor : Cursor} {used rest : List UInt8}
    (front : cursor.rest = used ++ rest) : (cursor.past used rest).stop = cursor.stop := by
  simp only [stop, offset_past, rest_past, front, List.length_append, Nat.add_assoc]

/-- A cursor stands further on in the buffer of another one. -/
def Cursor.Onward (start finish : Cursor) : Prop :=
  ∃ used rest, start.rest = used ++ rest ∧ finish = start.past used rest

namespace Cursor.Onward

variable {start middle finish : Cursor}

theorem refl (cursor : Cursor) : cursor.Onward cursor :=
  ⟨[], cursor.rest, rfl, (Cursor.past_nil rfl).symm⟩

theorem trans (onward : start.Onward middle) (onward' : middle.Onward finish) :
    start.Onward finish := by
  obtain ⟨used, rest, front, rfl⟩ := onward
  obtain ⟨used', rest', front', rfl⟩ := onward'
  rw [Cursor.rest_past] at front'
  exact ⟨used ++ used', rest', by rw [front, front', List.append_assoc], Cursor.past_past ..⟩

theorem offset_le (onward : start.Onward finish) : start.offset ≤ finish.offset := by
  obtain ⟨used, rest, -, rfl⟩ := onward
  rw [Cursor.offset_past]
  exact Nat.le_add_right ..

theorem stop_eq (onward : start.Onward finish) : finish.stop = start.stop := by
  obtain ⟨used, rest, front, rfl⟩ := onward
  exact Cursor.stop_past front

end Cursor.Onward

namespace Read

variable {α β : Type} {read : Read α} {origin : Nat}

theorem Takes.onward {form : Nat → List UInt8 → α → Prop} (takes : read.Takes form)
    {cursor finish : Cursor} {value : α} (done : read cursor = .ok value finish) :
    cursor.Onward finish := by
  obtain ⟨used, rest, front, same, -⟩ := (takes _ _ _).1 done
  exact ⟨used, rest, front, same⟩

/-- A read that fails at or behind a place leaves its cursor in the buffer, and the fault is
between that place and the end of the buffer. -/
def FailsFrom (origin : Nat) (read : Read α) : Prop :=
  ∀ cursor error finish, origin ≤ cursor.offset → read cursor = .error error finish →
    cursor.Onward finish ∧ origin ≤ error.offset ∧ error.offset ≤ cursor.stop

theorem failsFrom_bytes (count : Nat) : (bytes count).FailsFrom origin := by
  intro cursor error finish behind failed
  unfold bytes at failed
  split at failed <;> cases failed
  exact ⟨.refl cursor, behind, Nat.le_add_right ..⟩

theorem failsFrom_varint : varint.FailsFrom origin := by
  intro cursor error finish behind failed
  unfold varint at failed
  split at failed <;> cases failed
  exact ⟨.refl cursor, behind, Nat.le_add_right ..⟩

theorem failsFrom_pure (a : α) : (pure a : Read α).FailsFrom origin := by
  intro cursor error finish behind failed
  cases failed

theorem failsFrom_throw {error : Error} (here : error.offset = origin) :
    (throw error : Read α).FailsFrom origin := by
  rintro cursor error finish behind ⟨⟩
  exact ⟨.refl cursor, Nat.le_of_eq here.symm, here ▸ Nat.le_trans behind (Nat.le_add_right ..)⟩

theorem FailsFrom.map (fails : read.FailsFrom origin) (f : α → β) :
    (f <$> read).FailsFrom origin := by
  intro cursor error finish behind failed
  simp only [Functor.map, EStateM.map] at failed
  split at failed
  · cases failed
  · rename_i first
    cases failed
    exact fails _ _ _ behind first

theorem FailsFrom.bind {form : Nat → List UInt8 → α → Prop} {next : α → Read β}
    (fails : read.FailsFrom origin) (takes : read.Takes form)
    (fails' : ∀ a, (next a).FailsFrom origin) : (read >>= next).FailsFrom origin := by
  intro cursor error finish behind failed
  simp only [Bind.bind, EStateM.bind] at failed
  split at failed
  · rename_i a middle first
    have onward := takes.onward first
    obtain ⟨onward', le, le'⟩ :=
      fails' a _ _ _ (Nat.le_trans behind onward.offset_le) failed
    exact ⟨onward.trans onward', le, onward.stop_eq ▸ le'⟩
  · rename_i first
    cases failed
    exact fails _ _ _ behind first

/-- What is read from a place on that was asked for fails from there on, and so from any place in
front of it. -/
theorem FailsFrom.offset_bind {next : Nat → Read β}
    (fails : ∀ start, (next start).FailsFrom start) : (offset >>= next).FailsFrom origin := by
  intro cursor error finish behind failed
  obtain ⟨onward, le, le'⟩ := fails cursor.offset cursor error finish (Nat.le_refl _) failed
  exact ⟨onward, Nat.le_trans behind le, le'⟩

theorem failsFrom_payload (maxLength : Nat) : (payload maxLength).FailsFrom origin := by
  refine .offset_bind fun start => failsFrom_varint.bind takes_varint fun length => ?_
  split
  · exact failsFrom_throw rfl
  · refine FailsFrom.bind ?_ takes_offset fun place =>
      (failsFrom_bytes length).bind (takes_bytes length) fun data => failsFrom_pure _
    rintro cursor error finish behind ⟨⟩

theorem failsFrom_key : key.FailsFrom origin := by
  refine .offset_bind fun start => failsFrom_varint.bind takes_varint fun n => ?_
  dsimp only
  split
  · exact failsFrom_throw rfl
  · split
    · exact failsFrom_pure _
    · exact failsFrom_throw rfl

theorem failsFrom_word (layout : Word) : (word layout).FailsFrom origin := by
  cases layout with
  | varint => exact failsFrom_varint
  | fixed64 => exact (failsFrom_bytes 8).map littleEndian
  | fixed32 => exact (failsFrom_bytes 4).map littleEndian

theorem failsFrom_rawValue (maxLength : Nat) (wireType : WireType) :
    (rawValue maxLength wireType).FailsFrom origin := by
  cases wireType with
  | varint => exact (failsFrom_word .varint).map _
  | fixed64 => exact (failsFrom_word .fixed64).map _
  | fixed32 => exact (failsFrom_word .fixed32).map _
  | lengthDelimited => exact (failsFrom_payload maxLength).map _

theorem failsFrom_text (maxLength : Nat) : (text maxLength).FailsFrom origin := by
  intro cursor error finish behind failed
  simp only [text, Bind.bind, EStateM.bind] at failed
  split at failed
  · rename_i slice middle first
    obtain ⟨used, rest, front, rfl, length, -, -, place, rfl⟩ :=
      (takes_payload maxLength _ _ _).1 first
    cases found : Text.Utf8.decode? slice.bytes with
    | some value =>
      rw [found] at failed
      cases failed
    | none =>
      rw [found] at failed
      cases failed
      refine ⟨⟨_, rest, front, rfl⟩, ?_, ?_⟩
      · simp only [Error.offset, place]
        omega
      · simp only [Error.offset, place, Cursor.stop, front, List.length_append]
        omega
  · rename_i first
    cases failed
    exact failsFrom_payload maxLength _ _ _ behind first

theorem failsFrom_skip (maxLength : Nat) (wireType : WireType) :
    (skip maxLength wireType).FailsFrom origin := by
  intro cursor error finish behind failed
  unfold skip at failed
  split at failed
  · cases failed
  · rename_i first
    cases failed
    exact failsFrom_rawValue maxLength wireType _ _ _ behind first

theorem FailsFrom.le_stop (fails : read.FailsFrom 0) {cursor finish : Cursor} {error : Error}
    (failed : read cursor = .error error finish) : error.offset ≤ cursor.stop :=
  (fails cursor error finish (Nat.zero_le _) failed).2.2

end Read

/-- A break names no place behind another one. -/
inductive Break.Within (stop : Nat) : Break → Prop
  | key {error : Error} (le : error.offset ≤ stop) : Within stop (.key error)
  | value {offset : Nat} {found : Key} {error : Error} (here : offset ≤ stop)
    (le : error.offset ≤ stop) : Within stop (.value offset found error)

theorem nextRecord_spans {maxLength : Nat} {cursor : Cursor} {broken : Break}
    (failed : nextRecord maxLength cursor = .error broken) : broken.Within cursor.stop := by
  unfold nextRecord at failed
  split at failed
  · rename_i first
    cases failed
    exact .key (Read.failsFrom_key.le_stop first)
  · rename_i key inner first
    obtain ⟨used, rest, front, rfl, -⟩ := (Read.takes_key _ _ _).1 first
    split at failed
    · rename_i second
      cases failed
      exact .value (Nat.le_add_right ..)
        (Cursor.stop_past front ▸ (Read.failsFrom_rawValue _ _).le_stop second)
    · cases failed

/-- What stops a buffer from being taken apart lies within it. -/
theorem split_spans {maxLength : Nat} {cursor : Cursor} {records : List Record} {broken : Break}
    (parts : split maxLength cursor = (records, some broken)) : broken.Within cursor.stop := by
  fun_induction split maxLength cursor generalizing records with
  | case1 cursor ended => cases parts
  | case2 cursor more fault found =>
    cases parts
    exact nextRecord_spans found
  | case3 cursor more record finish found rest fault again ih =>
    cases parts
    obtain ⟨used, left, front, rfl, -⟩ := nextRecord_eq_ok_iff.1 found
    exact Cursor.stop_past front ▸ ih again

/-- What stops a run from being read lies within it. -/
theorem readRun_spans {layout : Word} {cursor : Cursor} {error : Error}
    (failed : readRun layout cursor = .error error) : error.offset ≤ cursor.stop := by
  fun_induction readRun layout cursor with
  | case1 cursor ended => cases failed
  | case2 cursor more error' after found =>
    cases failed
    exact (Read.failsFrom_word _).le_stop found
  | case3 cursor more n finish found error' again ih =>
    cases failed
    obtain ⟨used, left, front, rfl, -⟩ := (Read.takes_word _ _ _ _).1 found
    exact Cursor.stop_past front ▸ ih again
  | case4 cursor more n finish found rest again ih => cases failed

/-! ## Records within a buffer -/

theorem RawValue.Spells.pos {maxLength place : Nat} {wireType : WireType} {bytes : List UInt8}
    {raw : RawValue} (form : RawValue.Spells maxLength place wireType bytes raw) :
    0 < bytes.length := by
  cases form with
  | word form => exact form.pos
  | payload form short =>
    have := form.pos
    rw [List.length_append]
    omega

/-- A record takes a byte for its key and another one for its value at least. -/
theorem Record.Spells.two_le {maxLength place : Nat} {bytes : List UInt8} {record : Record}
    (form : record.Spells maxLength place bytes) : 2 ≤ bytes.length := by
  obtain ⟨-, -, key, value, rfl, key_form, value_form⟩ := form
  have first := key_form.number.pos
  have second := value_form.pos
  rw [List.length_append]
  omega

/-- Reading a record leaves at least two bytes less. -/
theorem nextRecord_le {maxLength : Nat} {cursor finish : Cursor} {record : Record}
    (done : nextRecord maxLength cursor = .ok (record, finish)) :
    finish.rest.length + 2 ≤ cursor.rest.length := by
  obtain ⟨used, rest, front, rfl, form⟩ := nextRecord_eq_ok_iff.1 done
  have := form.two_le
  rw [front, Cursor.rest_past, List.length_append]
  omega

/-- A slice is a part of another one, behind a key and a length at least. -/
def Slice.Inside (inner outer : Slice) : Prop :=
  ∃ front back, outer.bytes = front ++ inner.bytes ++ back ∧ 2 ≤ front.length ∧
    inner.offset = outer.offset + front.length

theorem Slice.Inside.stop_le {inner outer : Slice} (inside : inner.Inside outer) :
    inner.stop ≤ outer.stop := by
  obtain ⟨front, back, whole, -, place⟩ := inside
  simp only [stop, whole, place, List.length_append]
  omega

theorem Slice.Inside.length_lt {inner outer : Slice} (inside : inner.Inside outer) :
    inner.bytes.length + 2 ≤ outer.bytes.length := by
  obtain ⟨front, back, whole, behind, -⟩ := inside
  simp only [whole, List.length_append]
  omega

/-- The payload of a record stands at its end, behind a key and a length. -/
theorem Record.Spells.exists_front {maxLength place : Nat} {bytes : List UInt8} {record : Record}
    (form : record.Spells maxLength place bytes) {inner : Slice}
    (payload : record.value = .payload inner) :
    ∃ front, bytes = front ++ inner.bytes ∧ 2 ≤ front.length ∧
      inner.offset = place + front.length := by
  obtain ⟨-, -, key, value, rfl, key_form, value_form⟩ := form
  rw [payload] at value_form
  generalize record.key.wireType = wireType at value_form
  cases value_form with
  | @payload length bytes form short =>
    have first := key_form.number.pos
    have second := form.pos
    refine ⟨key ++ length, (List.append_assoc ..).symm, ?_, ?_⟩
    · rw [List.length_append]
      omega
    · rw [List.length_append, Nat.add_assoc]

/-- The records of a buffer start within it. -/
theorem offset_le_of_split {maxLength : Nat} {slice : Slice} {records : List Record}
    {broken : Option Break} (parts : split maxLength (.ofSlice slice) = (records, broken))
    {record : Record} (held : record ∈ records) : record.offset ≤ slice.stop := by
  obtain ⟨used, rest, whole, row⟩ := row_of_split parts
  obtain ⟨front, part, back, rfl, form⟩ := row.exists_part_of_mem held
  have length := congrArg List.length whole
  simp only [Cursor.ofSlice, List.length_append] at length
  simp only [form.offset, Cursor.ofSlice, Cursor.offset, Slice.stop, length]
  omega

/-- The payloads of the records of a buffer stand inside it. -/
theorem inside_of_split {maxLength : Nat} {slice : Slice} {records : List Record}
    {broken : Option Break} (parts : split maxLength (.ofSlice slice) = (records, broken))
    {record : Record} (held : record ∈ records) {inner : Slice}
    (payload : record.value = .payload inner) : inner.Inside slice := by
  obtain ⟨used, rest, whole, row⟩ := row_of_split parts
  obtain ⟨front, part, back, rfl, form⟩ := row.exists_part_of_mem held
  obtain ⟨head, rfl, behind, place⟩ := form.exists_front payload
  refine ⟨front ++ head, back ++ rest, ?_, ?_, ?_⟩
  · exact whole.trans (by simp only [List.append_assoc])
  · rw [List.length_append]
    omega
  · rw [place, List.length_append, Nat.add_assoc]
    rfl

end Protobuf.Wire
