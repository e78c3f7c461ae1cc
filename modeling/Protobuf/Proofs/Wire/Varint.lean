import Mathlib.Algebra.Group.Nat.Defs
import Protobuf.Wire.Varint

/-! # Forms of varints

A varint is a row of digits in base 128. Reading takes exactly the rows described by `Spells` off
the front of a byte string, and what writing produces for a number below `2 ^ 64` is such a row.

## Implementation notes

The number of bytes that may still follow is an index of the relation, because the last of ten
bytes is held to a single bit and no other byte is. -/

namespace Protobuf.Wire.Varint

/-- Some bytes, at most `room` of them, are a number in base 128, padded or not. All but the last
have their high bit set. The last byte there is room for has a single bit. -/
inductive Spells : Nat → List UInt8 → Nat → Prop
  | last {room : Nat} {b : UInt8} (small : b.toNat < 128) (bit : room = 0 → b.toNat ≤ 1) :
    Spells (room + 1) [b] b.toNat
  | more {room : Nat} {b : UInt8} {rest : List UInt8} {high : Nat} (large : 128 ≤ b.toNat)
    (tail : Spells room rest high) : Spells (room + 1) (b :: rest) (b.toNat - 128 + 128 * high)

namespace Spells

variable {room n : Nat} {bytes : List UInt8}

theorem pos (form : Spells room bytes n) : 0 < bytes.length := by
  cases form <;> simp

/-- A row of digits is read off the front of any byte string that starts with it. -/
theorem decodeWithin (form : Spells room bytes n) (rest : List UInt8) :
    decodeWithin room (bytes ++ rest) = some (n, bytes.length) := by
  induction form with
  | @last room b small bit =>
    have fits : ¬(room = 0 ∧ 1 < b.toNat) := fun ⟨spent, above⟩ => by
      have := bit spent
      omega
    simp [Varint.decodeWithin, fits, small]
  | @more room b tail high large form ih =>
    have left : room ≠ 0 := fun spent => by
      subst spent
      cases form
    have fits : ¬(room = 0 ∧ 1 < b.toNat) := fun ⟨spent, _⟩ => left spent
    simp [Varint.decodeWithin, fits, Nat.not_lt.2 large, ih]

/-- A row of digits is one number. -/
theorem unique {other : Nat} (form : Spells room bytes n) (form' : Spells room bytes other) :
    n = other := by
  have same := (form.decodeWithin []).symm.trans (form'.decodeWithin [])
  exact (Prod.mk.inj (Option.some.inj same)).1

end Spells

/-- What was read is a row of digits at the front. -/
theorem spells_of_decodeWithin {room n used : Nat} {bytes : List UInt8}
    (read : decodeWithin room bytes = some (n, used)) :
    ∃ digits rest, bytes = digits ++ rest ∧ digits.length = used ∧ Spells room digits n := by
  induction room generalizing bytes n used with
  | zero => cases read
  | succ room ih =>
    cases bytes with
    | nil => cases read
    | cons b rest =>
      unfold decodeWithin at read
      split at read
      · cases read
      · rename_i fits
        split at read
        · rename_i small
          cases read
          exact ⟨[b], rest, rfl, rfl, .last small fun spent => by omega⟩
        · rename_i large
          split at read
          · rename_i high used' inner
            cases read
            obtain ⟨digits, rest, rfl, rfl, form⟩ := ih inner
            exact ⟨b :: digits, rest, rfl, rfl, .more (Nat.not_lt.1 large) form⟩
          · cases read

/-- Reading accepts exactly the rows of digits. -/
theorem decodeWithin_eq_some_iff {room n used : Nat} {bytes : List UInt8} :
    decodeWithin room bytes = some (n, used) ↔
      ∃ digits rest, bytes = digits ++ rest ∧ digits.length = used ∧ Spells room digits n := by
  constructor
  · exact spells_of_decodeWithin
  · rintro ⟨digits, rest, rfl, rfl, form⟩
    exact form.decodeWithin rest

private theorem toNat_byte {n : Nat} (small : n < 256) : n.toUInt8.toNat = n := by
  simp [Nat.mod_eq_of_lt small]

/-- What is written for a number that fits in so many digits is a row of them. -/
theorem spells_encode_within {room n : Nat} (fits : n < 2 ^ (7 * room + 1)) :
    Spells (room + 1) (encode n) n := by
  induction room generalizing n with
  | zero =>
    have small : n < 128 := by omega
    rw [encode, if_pos small]
    have form : Spells 1 [n.toUInt8] n.toUInt8.toNat :=
      .last (by rw [toNat_byte] <;> omega) fun _ => by rw [toNat_byte] <;> omega
    rwa [toNat_byte (by omega)] at form
  | succ room ih =>
    rw [encode]
    split
    · rename_i small
      have form : Spells (room + 1 + 1) [n.toUInt8] n.toUInt8.toNat :=
        .last (by rw [toNat_byte] <;> omega) fun spent => by omega
      rwa [toNat_byte (by omega)] at form
    · have power : 2 ^ (7 * (room + 1) + 1) = 2 ^ (7 * room + 1) * 128 := by
        rw [show 7 * (room + 1) + 1 = 7 * room + 1 + 7 by omega, Nat.pow_add]
      have digit : (n % 128 + 128).toUInt8.toNat = n % 128 + 128 := toNat_byte (by omega)
      have tail := ih (n := n / 128) (by omega)
      have form : Spells (room + 1 + 1) ((n % 128 + 128).toUInt8 :: encode (n / 128))
          ((n % 128 + 128).toUInt8.toNat - 128 + 128 * (n / 128)) :=
        .more (by omega) tail
      have same : (n % 128 + 128).toUInt8.toNat - 128 + 128 * (n / 128) = n := by omega
      rwa [same] at form

/-- What is written for a number of 64 bits is a varint. -/
theorem spells_encode {n : Nat} (fits : n < UInt64.size) : Spells maxBytes (encode n) n :=
  spells_encode_within fits

end Protobuf.Wire.Varint
