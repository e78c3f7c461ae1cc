import Protobuf.Wire.Cursor

/-! # Records

A message is a row of records, each a key and a value. What a record's value takes up follows from
its wire type alone, so a message can be taken apart into records before anything is known about
its fields. Taking apart stops at the first record that cannot be read; the records in front of it
are still there.

## Main definitions

* `RawValue` is a value before its field gives it a meaning.
* `Record` is a record that was read, with the bytes it was read from.
* `split` takes a buffer apart. -/

namespace Protobuf.Wire

/-- The layouts of numbers. -/
inductive Word
  | varint
  | fixed64
  | fixed32
deriving DecidableEq, Repr

/-- The wire type of numbers with a layout. -/
def Word.wireType : Word → WireType
  | .varint => .varint
  | .fixed64 => .fixed64
  | .fixed32 => .fixed32

/-- A value as its wire type gives it: a number or a payload. -/
inductive RawValue
  | word (layout : Word) (value : Nat)
  | payload (slice : Slice)
deriving DecidableEq, Repr

/-- The wire type of a value. -/
def RawValue.wireType : RawValue → WireType
  | .word layout _ => layout.wireType
  | .payload _ => .lengthDelimited

/-- The number of a value with the given layout. -/
def RawValue.word? (layout : Word) : RawValue → Option Nat
  | .word found value => if found = layout then some value else none
  | .payload _ => none

/-- The payload of a value. -/
def RawValue.payload? : RawValue → Option Slice
  | .word _ _ => none
  | .payload slice => some slice

namespace Read

/-- A number with a layout. -/
def word : Word → Read Nat
  | .varint => varint
  | .fixed64 => fixed64
  | .fixed32 => fixed32

/-- A value of a wire type. -/
def rawValue (maxLength : Nat) : WireType → Read RawValue
  | .varint => RawValue.word .varint <$> word .varint
  | .fixed64 => RawValue.word .fixed64 <$> word .fixed64
  | .fixed32 => RawValue.word .fixed32 <$> word .fixed32
  | .lengthDelimited => RawValue.payload <$> payload maxLength

end Read

/-- A record of a message. -/
structure Record where
  /-- The place of its key in the outermost input. -/
  offset : Nat
  key : Key
  value : RawValue
  /-- The bytes of the key and the value. -/
  raw : List UInt8
deriving DecidableEq, Repr

/-- Why no further record could be read. -/
inductive Break
  /-- The key is at fault. -/
  | key (error : Error)
  /-- The key at a place is sound and its value is at fault. -/
  | value (offset : Nat) (key : Key) (error : Error)
deriving DecidableEq, Repr

/-- The fault itself. -/
def Break.error : Break → Error
  | .key error => error
  | .value _ _ error => error

/-- Read the next record. -/
def nextRecord (maxLength : Nat) (cursor : Cursor) : Except Break (Record × Cursor) :=
  match Read.key cursor with
  | .error error _ => .error (.key error)
  | .ok key inner =>
    match Read.rawValue maxLength key.wireType inner with
    | .error error _ => .error (.value cursor.offset key error)
    | .ok value finish => .ok (⟨cursor.offset, key, value, cursor.upTo finish⟩, finish)

/-- A read takes nothing but bytes off the front of the buffer. -/
def Read.Shrinks {α : Type} (read : Read α) : Prop :=
  ∀ cursor value finish, read cursor = .ok value finish →
    finish.rest.length ≤ cursor.rest.length

namespace Read

theorem shrinks_bytes (count : Nat) : (bytes count).Shrinks := by
  intro cursor value finish done
  unfold bytes at done
  split at done <;> cases done
  simp [Cursor.advance]

theorem Shrinks.map {α β : Type} {read : Read α} (shrinks : read.Shrinks) (f : α → β) :
    Shrinks (f <$> read) := by
  intro cursor value finish done
  simp only [Functor.map, EStateM.map] at done
  split at done
  · rename_i inner after first
    cases done
    exact shrinks cursor inner _ first
  · cases done

theorem Shrinks.bind {α β : Type} {read : Read α} {next : α → Read β} (shrinks : read.Shrinks)
    (shrinks' : ∀ a, (next a).Shrinks) : Shrinks (read >>= next) := by
  intro cursor value finish done
  simp only [Bind.bind, EStateM.bind] at done
  split at done
  · rename_i inner after first
    exact Nat.le_trans (shrinks' inner after value finish done) (shrinks cursor inner after first)
  · cases done

theorem shrinks_pure {α : Type} (a : α) : (pure a : Read α).Shrinks := by
  intro cursor value finish done
  cases done
  exact Nat.le_refl _

theorem shrinks_throw {α : Type} (error : Error) : (throw error : Read α).Shrinks := by
  intro cursor value finish done
  cases done

theorem shrinks_offset : offset.Shrinks := by
  intro cursor value finish done
  cases done
  exact Nat.le_refl _

theorem shrinks_varint : varint.Shrinks := by
  intro cursor value finish done
  unfold varint at done
  split at done <;> cases done
  simp [Cursor.advance]

theorem shrinks_word (layout : Word) : (word layout).Shrinks := by
  cases layout
  · exact shrinks_varint
  · exact (shrinks_bytes 8).map _
  · exact (shrinks_bytes 4).map _

theorem shrinks_payload (maxLength : Nat) : (payload maxLength).Shrinks := by
  refine shrinks_offset.bind fun start => shrinks_varint.bind fun length => ?_
  by_cases tooLong : maxLength < length
  · rw [if_pos tooLong]
    exact shrinks_throw _
  · rw [if_neg tooLong]
    exact shrinks_offset.bind fun _ => (shrinks_bytes _).bind fun _ => shrinks_pure _

theorem shrinks_rawValue (maxLength : Nat) (wireType : WireType) :
    (rawValue maxLength wireType).Shrinks := by
  cases wireType
  · exact (shrinks_word .varint).map _
  · exact (shrinks_word .fixed64).map _
  · exact (shrinks_payload maxLength).map _
  · exact (shrinks_word .fixed32).map _

end Read

theorem Varint.decodeWithin_used {room : Nat} {bytes : List UInt8} {value used : Nat}
    (read : decodeWithin room bytes = some (value, used)) : 1 ≤ used ∧ used ≤ bytes.length := by
  induction room generalizing bytes value used with
  | zero => cases read
  | succ room ih =>
    cases bytes with
    | nil => cases read
    | cons b rest =>
      unfold decodeWithin at read
      split at read
      · cases read
      · split at read
        · cases read
          simp
        · split at read
          · rename_i high used' inner
            cases read
            have bound := ih inner
            simp only [List.length_cons]
            omega
          · cases read

/-- A varint takes at least one byte. -/
theorem Read.varint_lt {cursor finish : Cursor} {value : Nat}
    (done : Read.varint cursor = .ok value finish) :
    finish.rest.length < cursor.rest.length := by
  unfold Read.varint at done
  split at done
  · rename_i found used read
    cases done
    have bound := Varint.decodeWithin_used read
    simp only [Cursor.advance, List.length_drop]
    omega
  · cases done

/-- A key takes at least one byte. -/
theorem Read.key_lt {cursor finish : Cursor} {key : Key}
    (done : Read.key cursor = .ok key finish) : finish.rest.length < cursor.rest.length := by
  simp only [Read.key, Bind.bind, EStateM.bind, Read.offset] at done
  cases first : Read.varint cursor with
  | error error after => simp [first] at done
  | ok value after =>
    have shorter := Read.varint_lt first
    simp only [first] at done
    by_cases outside : (splitKey value).1 = 0 ∨ maxTag < (splitKey value).1
    · rw [if_pos outside] at done
      cases done
    · rw [if_neg outside] at done
      cases type : WireType.ofId? (splitKey value).2 with
      | none =>
        rw [type] at done
        cases done
      | some wireType =>
        rw [type] at done
        cases done
        exact shorter

/-- Reading a record leaves fewer bytes. -/
theorem nextRecord_lt {maxLength : Nat} {cursor finish : Cursor} {record : Record}
    (done : nextRecord maxLength cursor = .ok (record, finish)) :
    finish.rest.length < cursor.rest.length := by
  unfold nextRecord at done
  split at done
  · cases done
  · rename_i key inner first
    have shorter := Read.key_lt first
    split at done
    · cases done
    · rename_i value after second
      cases done
      exact Nat.lt_of_le_of_lt (Read.shrinks_rawValue _ _ _ _ _ second) shorter

/-- Take a buffer apart into records, and say why this stopped before its end, if it did. -/
def split (maxLength : Nat) (cursor : Cursor) : List Record × Option Break :=
  if cursor.rest.isEmpty then ([], none)
  else
    match _found : nextRecord maxLength cursor with
    | .error broken => ([], some broken)
    | .ok (record, finish) =>
      let (records, broken) := split maxLength finish
      (record :: records, broken)
termination_by cursor.rest.length
decreasing_by exact nextRecord_lt _found

end Protobuf.Wire
