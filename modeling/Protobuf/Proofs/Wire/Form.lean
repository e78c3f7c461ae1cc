import Protobuf.Proofs.Wire.Varint
import Protobuf.Wire.Run

/-! # Forms of keys and values

What the bytes of a key, a word and a payload look like, and what it is for a read to take exactly
the bytes of a form off the front of a buffer. Such reads can be put behind one another. Main
statement: `Takes.bind`.

## Implementation notes

A form may speak of the place where its bytes start, because a payload keeps its place in the
outermost input. -/

namespace Protobuf.Wire

/-- Some bytes are a number with a layout. -/
inductive Word.Spells : Word → List UInt8 → Nat → Prop
  | varint {bytes : List UInt8} {n : Nat} (form : Varint.Spells Varint.maxBytes bytes n) :
    Spells .varint bytes n
  | fixed64 {bytes : List UInt8} (width : bytes.length = 8) :
    Spells .fixed64 bytes (Read.littleEndian bytes)
  | fixed32 {bytes : List UInt8} (width : bytes.length = 4) :
    Spells .fixed32 bytes (Read.littleEndian bytes)

/-- Some bytes are a key: a varint of a tag that records may have and a wire type with a meaning. -/
structure Key.Spells (bytes : List UInt8) (key : Key) : Prop where
  number : Varint.Spells Varint.maxBytes bytes (key.tag * 8 + key.wireType.id)
  pos : 1 ≤ key.tag
  le : key.tag ≤ maxTag

/-- Some bytes are a length within a limit, and that many bytes of payload. -/
inductive Payload (maxLength : Nat) : List UInt8 → List UInt8 → Prop
  | intro {length payload : List UInt8}
    (form : Varint.Spells Varint.maxBytes length payload.length)
    (short : payload.length ≤ maxLength) : Payload maxLength (length ++ payload) payload

/-- Some bytes at a place are a value of a wire type. -/
inductive RawValue.Spells (maxLength place : Nat) : WireType → List UInt8 → RawValue → Prop
  | word {layout : Word} {bytes : List UInt8} {n : Nat} (form : layout.Spells bytes n) :
    Spells maxLength place layout.wireType bytes (.word layout n)
  | payload {length payload : List UInt8}
    (form : Varint.Spells Varint.maxBytes length payload.length)
    (short : payload.length ≤ maxLength) :
    Spells maxLength place .lengthDelimited (length ++ payload)
      (.payload ⟨place + length.length, payload⟩)

theorem RawValue.wireType_of_spells {maxLength place : Nat} {wireType : WireType}
    {bytes : List UInt8} {raw : RawValue}
    (form : RawValue.Spells maxLength place wireType bytes raw) : wireType = raw.wireType := by
  cases form <;> rfl

theorem WireType.id_lt (wireType : WireType) : wireType.id < 8 := by
  cases wireType <;> decide

/-- The bytes of a key tell its tag. -/
theorem Key.Spells.tag_unique {bytes : List UInt8} {key other : Key} (form : key.Spells bytes)
    (form' : other.Spells bytes) : key.tag = other.tag := by
  have same := form.number.unique form'.number
  have small := key.wireType.id_lt
  have small' := other.wireType.id_lt
  omega

/-- The cursor moved over the bytes at its front, with the others left. -/
def Cursor.past (cursor : Cursor) (used rest : List UInt8) : Cursor :=
  ⟨cursor.base, cursor.index + used.length, rest⟩

namespace Cursor

@[simp] theorem rest_past (cursor : Cursor) (used rest : List UInt8) :
    (cursor.past used rest).rest = rest := rfl

@[simp] theorem offset_past (cursor : Cursor) (used rest : List UInt8) :
    (cursor.past used rest).offset = cursor.offset + used.length := by
  simp only [past, offset]
  omega

@[simp] theorem past_past (cursor : Cursor) (used more middle rest : List UInt8) :
    (cursor.past used middle).past more rest = cursor.past (used ++ more) rest := by
  simp [past, Nat.add_assoc]

theorem past_nil {cursor : Cursor} {rest : List UInt8} (split : cursor.rest = rest) :
    cursor.past [] rest = cursor := by
  subst split
  rfl

theorem advance_eq_past {cursor : Cursor} {used rest : List UInt8}
    (split : cursor.rest = used ++ rest) : cursor.advance used.length = cursor.past used rest := by
  simp [advance, past, split]

theorem upTo_past {cursor : Cursor} {used rest : List UInt8} (split : cursor.rest = used ++ rest) :
    cursor.upTo (cursor.past used rest) = used := by
  simp [upTo, past, split]

end Cursor

/-- A read takes exactly the bytes of a form off the front of a buffer. -/
def Read.Takes {α : Type} (read : Read α) (form : Nat → List UInt8 → α → Prop) : Prop :=
  ∀ cursor value finish, read cursor = .ok value finish ↔
    ∃ used rest, cursor.rest = used ++ rest ∧ finish = cursor.past used rest ∧
      form cursor.offset used value

namespace Read

variable {α β : Type} {read : Read α} {form : Nat → List UInt8 → α → Prop}

theorem Takes.congr {other : Nat → List UInt8 → α → Prop} (takes : read.Takes form)
    (same : ∀ place used value, form place used value ↔ other place used value) :
    read.Takes other := by
  intro cursor value finish
  rw [takes cursor value finish]
  simp only [same]

theorem takes_pure (a : α) :
    (pure a : Read α).Takes fun _ used value => used = [] ∧ value = a := by
  intro cursor value finish
  constructor
  · intro done
    cases done
    exact ⟨[], cursor.rest, rfl, rfl, rfl, rfl⟩
  · rintro ⟨used, rest, front, rfl, rfl, rfl⟩
    cases front
    rfl

theorem takes_throw (error : Error) : (throw error : Read α).Takes fun _ _ _ => False := by
  intro cursor value finish
  constructor
  · intro done
    cases done
  · rintro ⟨_, _, _, _, impossible⟩
    exact impossible.elim

theorem takes_offset : offset.Takes fun place used value => used = [] ∧ value = place := by
  intro cursor value finish
  constructor
  · intro done
    cases done
    exact ⟨[], cursor.rest, rfl, rfl, rfl, rfl⟩
  · rintro ⟨used, rest, front, rfl, rfl, rfl⟩
    cases front
    rfl

theorem takes_bytes (count : Nat) :
    (bytes count).Takes fun _ used value => used.length = count ∧ value = used := by
  intro cursor value finish
  constructor
  · intro done
    unfold bytes at done
    split at done <;> cases done
    rename_i enough
    refine ⟨cursor.rest.take count, cursor.rest.drop count, (List.take_append_drop ..).symm, ?_,
      by simp [enough], rfl⟩
    simp [Cursor.advance, Cursor.past, enough]
  · rintro ⟨used, rest, front, rfl, rfl, rfl⟩
    simp [bytes, front, Cursor.advance, Cursor.past]

theorem takes_varint :
    varint.Takes fun _ used value => Varint.Spells Varint.maxBytes used value := by
  intro cursor value finish
  constructor
  · intro done
    unfold varint at done
    split at done
    · rename_i n count read
      cases done
      obtain ⟨used, rest, front, rfl, form⟩ := Varint.decodeWithin_eq_some_iff.1 read
      exact ⟨used, rest, front, Cursor.advance_eq_past front, form⟩
    · cases done
  · rintro ⟨used, rest, front, rfl, form⟩
    have read : Varint.decode cursor.rest = some (value, used.length) :=
      front ▸ form.decodeWithin rest
    simp [varint, read, Cursor.advance_eq_past front]

theorem map_eq_ok_iff {f : α → β} {cursor finish : Cursor} {b : β} :
    (f <$> read) cursor = .ok b finish ↔ ∃ a, read cursor = .ok a finish ∧ f a = b := by
  simp only [Functor.map, EStateM.map]
  cases read cursor with
  | error error after => simp
  | ok a after =>
    constructor
    · rintro ⟨⟩
      exact ⟨a, rfl, rfl⟩
    · rintro ⟨_, ⟨⟩, rfl⟩
      rfl

theorem map_of_ok {cursor finish : Cursor} {a : α} (done : read cursor = .ok a finish)
    (f : α → β) : (f <$> read) cursor = .ok (f a) finish :=
  map_eq_ok_iff.2 ⟨a, done, rfl⟩

/-- The value of a read, changed afterwards. -/
theorem Takes.map (takes : read.Takes form) (f : α → β) :
    Read.Takes (f <$> read) fun place used b => ∃ a, form place used a ∧ b = f a := by
  intro cursor b finish
  rw [map_eq_ok_iff]
  constructor
  · rintro ⟨a, first, rfl⟩
    obtain ⟨used, rest, front, same, holds⟩ := (takes _ _ _).1 first
    exact ⟨used, rest, front, same, a, holds, rfl⟩
  · rintro ⟨used, rest, front, same, a, holds, rfl⟩
    exact ⟨a, (takes _ _ _).2 ⟨used, rest, front, same, holds⟩, rfl⟩

/-- A read after another one takes its bytes behind those of the first. -/
theorem Takes.bind {next : α → Read β} {after : α → Nat → List UInt8 → β → Prop}
    (takes : read.Takes form) (takes' : ∀ a, (next a).Takes (after a)) :
    Read.Takes (read >>= next) fun place used b =>
      ∃ a front back, used = front ++ back ∧ form place front a ∧
        after a (place + front.length) back b := by
  intro cursor b finish
  simp only [Bind.bind, EStateM.bind]
  constructor
  · intro done
    split at done
    · rename_i a inner first
      obtain ⟨front, rest, here, rfl, holds⟩ := (takes _ _ _).1 first
      obtain ⟨back, rest', there, rfl, holds'⟩ := (takes' a _ _ _).1 done
      rw [Cursor.offset_past] at holds'
      rw [Cursor.rest_past] at there
      refine ⟨front ++ back, rest', ?_, Cursor.past_past .., a, front, back, rfl, holds, holds'⟩
      rw [here, there, List.append_assoc]
    · cases done
  · rintro ⟨used, rest, here, rfl, a, front, back, rfl, holds, holds'⟩
    rw [List.append_assoc] at here
    rw [(takes _ _ _).2 ⟨front, back ++ rest, here, rfl, holds⟩]
    refine (takes' a _ _ _).2 ⟨back, rest, rfl, (Cursor.past_past ..).symm, ?_⟩
    rw [Cursor.offset_past]
    exact holds'

end Read

end Protobuf.Wire
