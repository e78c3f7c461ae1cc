import Mathlib.Algebra.BigOperators.Group.Finset.Basic
import Mathlib.Algebra.BigOperators.Ring.Finset
import Protobuf.Proofs.Wire.Varint
import Protobuf.Wire.Cursor

/-! # Digits of varints

A varint is the sum of its digits, each times its power of 128, and ends with the first byte that
has no continuation bit. Reading and the length of the shortest form are both compared with that
sum: the number of bytes is bounded by a power of 128 that the number stays below. Main statement:
`Varint.decode_exact`.

## Implementation notes

Lengths are compared by what bounds them. `size` counts bits and `encode` divides by 128, and for
both the lengths that suffice are those `room` with `n < 128 ^ room`. -/

namespace Protobuf.Wire.Varint

/-- A byte string starts with a number of `count` digits, at most `room` of them: the last one is
the first byte without a continuation bit, and only a single bit of it counts if there is no room
behind it. The number is the sum of the digits. -/
structure Digits (room : Nat) (bytes : List UInt8) (n count : Nat) : Prop where
  le : count ≤ room
  last : ∃ index, count = index + 1 ∧ bytes.findIdx? (·.toNat < 128) = some index
  bit : count = room → ∀ byte, bytes[room - 1]? = some byte → byte.toNat ≤ 1
  sum : n = ∑ i ∈ Finset.range count, (bytes.getD i 0).toNat % 128 * 128 ^ i

variable {room n count : Nat} {b : UInt8} {bytes rest : List UInt8}

theorem not_digits_nil : ¬Digits room [] n count := by
  rintro ⟨-, ⟨index, -, found⟩, -, -⟩
  cases found

theorem not_digits_zero : ¬Digits 0 bytes n count := by
  rintro ⟨le, ⟨index, rfl, -⟩, -, -⟩
  omega

/-- A byte without a continuation bit is a number of one digit. -/
theorem digits_cons_iff_of_lt (small : b.toNat < 128) :
    Digits (room + 1) (b :: rest) n count ↔
      count = 1 ∧ n = b.toNat ∧ (room = 0 → b.toNat ≤ 1) := by
  have found : (b :: rest).findIdx? (·.toNat < 128) = some 0 := by simp [List.findIdx?_cons, small]
  have digit : b.toNat % 128 = b.toNat := Nat.mod_eq_of_lt small
  constructor
  · rintro ⟨-, ⟨index, rfl, found'⟩, bit, sum⟩
    cases found.symm.trans found'
    refine ⟨rfl, by simpa [digit] using sum, fun spent => ?_⟩
    subst spent
    exact bit rfl b rfl
  · rintro ⟨rfl, rfl, bit⟩
    refine ⟨by omega, ⟨0, rfl, found⟩, fun whole byte here => ?_, by simp [digit]⟩
    obtain rfl : room = 0 := by omega
    cases here
    exact bit rfl

/-- A byte with a continuation bit is the lowest digit of a number that goes on behind it. -/
theorem digits_cons_iff_of_le (large : 128 ≤ b.toNat) :
    Digits (room + 1) (b :: rest) n count ↔
      ∃ high used, Digits room rest high used ∧ n = b.toNat - 128 + 128 * high ∧
        count = used + 1 := by
  have small : ¬b.toNat < 128 := Nat.not_lt.2 large
  have found : (b :: rest).findIdx? (·.toNat < 128) =
      (rest.findIdx? (·.toNat < 128)).map (· + 1) := by simp [List.findIdx?_cons, small]
  have digit : b.toNat % 128 = b.toNat - 128 := by
    have := b.toNat_lt
    omega
  have shifted (used : Nat) :
      ∑ i ∈ Finset.range (used + 1), ((b :: rest).getD i 0).toNat % 128 * 128 ^ i =
        b.toNat - 128 + 128 * ∑ i ∈ Finset.range used, (rest.getD i 0).toNat % 128 * 128 ^ i := by
    rw [Finset.sum_range_succ', Finset.mul_sum, Nat.add_comm]
    refine congrArg₂ (· + ·) (by simp [digit]) (Finset.sum_congr rfl fun i _ => ?_)
    rw [List.getD_cons_succ, Nat.pow_succ, Nat.mul_comm (128 ^ i) 128, Nat.mul_left_comm]
  constructor
  · rintro ⟨le, ⟨index, rfl, found'⟩, bit, sum⟩
    rw [found, Option.map_eq_some_iff] at found'
    obtain ⟨inner, there, rfl⟩ := found'
    refine ⟨_, inner + 1, ⟨by omega, ⟨inner, rfl, there⟩, fun whole byte here => ?_, rfl⟩,
      sum.trans (shifted _), rfl⟩
    refine bit (by omega) byte ?_
    rw [← whole] at here ⊢
    exact here
  · rintro ⟨high, used, ⟨le, ⟨index, rfl, there⟩, bit, rfl⟩, rfl, rfl⟩
    refine ⟨by omega, ⟨index + 1, rfl, by rw [found, there]; rfl⟩, fun whole byte here => ?_,
      (shifted _).symm⟩
    refine bit (by omega) byte ?_
    obtain rfl : room = index + 1 := by omega
    exact here

/-- Reading takes the numbers that a byte string starts with. -/
theorem decodeWithin_iff_digits :
    decodeWithin room bytes = some (n, count) ↔ Digits room bytes n count := by
  induction room generalizing bytes n count with
  | zero => exact iff_of_false (by simp [decodeWithin]) not_digits_zero
  | succ room ih =>
    cases bytes with
    | nil => exact iff_of_false (by simp [decodeWithin]) not_digits_nil
    | cons b rest =>
      rw [decodeWithin]
      by_cases small : b.toNat < 128
      · rw [digits_cons_iff_of_lt small, if_pos small, Option.ite_none_left_eq_some,
          Option.some.injEq, Prod.mk.injEq]
        omega
      · have large : 128 ≤ b.toNat := Nat.not_lt.1 small
        rw [digits_cons_iff_of_le large, if_neg small, Option.ite_none_left_eq_some]
        constructor
        · rintro ⟨-, read⟩
          split at read
          · rename_i high used inner
            cases read
            exact ⟨high, used, ih.1 inner, rfl, rfl⟩
          · cases read
        · rintro ⟨high, used, digits, rfl, rfl⟩
          have left : room ≠ 0 := by
            rintro rfl
            exact not_digits_zero digits
          exact ⟨fun spent => left spent.1, by rw [ih.2 digits]⟩

namespace Spells

/-- A number stays below the power of 128 that its digits leave room for. -/
theorem lt_pow (form : Spells room bytes n) : n < 128 ^ bytes.length := by
  induction form with
  | last small => simpa using small
  | @more room b rest high large tail ih =>
    have digit := b.toNat_lt
    rw [List.length_cons, Nat.pow_succ]
    omega

/-- A number is as short as the single bit of the last byte that there is room for makes it. -/
theorem lt_two_pow (form : Spells (room + 1) bytes n) : n < 2 ^ (7 * room + 1) := by
  generalize whole : room + 1 = all at form
  induction form generalizing room with
  | @last room' b small bit =>
    obtain rfl : room = room' := Nat.succ.inj whole
    cases room with
    | zero => exact Nat.lt_succ_of_le (bit rfl)
    | succ room =>
      calc b.toNat < 2 ^ 7 := small
        _ ≤ 2 ^ (7 * (room + 1) + 1) := Nat.pow_le_pow_right (by decide) (by omega)
  | @more room' b rest high large tail ih =>
    obtain rfl : room = room' := Nat.succ.inj whole
    cases room with
    | zero => cases tail
    | succ room =>
      have digit := b.toNat_lt
      have inner := ih rfl
      have power : 2 ^ (7 * (room + 1) + 1) = 2 ^ (7 * room + 1) * 128 := by
        rw [show 7 * (room + 1) + 1 = 7 * room + 1 + 7 by omega, Nat.pow_add]
      omega

end Spells

theorem size_pos (n : Nat) : 0 < size n := by
  rw [size]
  omega

theorem length_encode_pos (n : Nat) : 0 < (encode n).length := by
  rw [encode]
  split <;> simp

/-- Counting bits, so many bytes suffice for the numbers below a power of 128. -/
theorem size_le_iff (pos : 0 < room) : size n ≤ room ↔ n < 128 ^ room := by
  have odd : n ||| 1 ≠ 0 := by
    have : 1 ≤ n ||| 1 := Nat.right_le_or
    omega
  have power : 128 ^ room = 2 ^ (7 * room) := by
    rw [Nat.pow_mul]
  have one : 1 < 2 ^ (7 * room) := Nat.one_lt_two_pow (by omega)
  calc size n ≤ room ↔ (n ||| 1).log2 < 7 * room := by
        rw [size]
        omega
    _ ↔ n ||| 1 < 2 ^ (7 * room) := Nat.log2_lt odd
    _ ↔ n < 2 ^ (7 * room) := ⟨fun below => Nat.lt_of_le_of_lt Nat.left_le_or below,
      fun below => Nat.or_lt_two_pow below one⟩
    _ ↔ n < 128 ^ room := by rw [power]

/-- Dividing by 128, so many bytes suffice for the numbers below a power of 128. -/
theorem length_encode_le_iff (pos : 0 < room) : (encode n).length ≤ room ↔ n < 128 ^ room := by
  induction room generalizing n with
  | zero => omega
  | succ room ih =>
    rw [encode]
    by_cases small : n < 128
    · have bound : 128 ^ 1 ≤ 128 ^ (room + 1) := Nat.pow_le_pow_right (by decide) (by omega)
      simp only [small, if_true, List.length_singleton]
      omega
    · simp only [small, if_false, List.length_cons, Nat.add_le_add_iff_right]
      cases room with
      | zero =>
        have := length_encode_pos (n / 128)
        omega
      | succ room =>
        rw [ih (Nat.succ_pos room), Nat.div_lt_iff_lt_mul (by decide), Nat.pow_succ 128 (room + 1)]

/-- The shortest form is as long as the bits of the number say. -/
theorem length_encode (n : Nat) : (encode n).length = size n := by
  apply Nat.le_antisymm
  · exact (length_encode_le_iff (size_pos n)).2 ((size_le_iff (size_pos n)).1 (Nat.le_refl _))
  · exact (size_le_iff (length_encode_pos n)).2
      ((length_encode_le_iff (length_encode_pos n)).1 (Nat.le_refl _))

/-- Reading a varint is exact. It takes a number exactly if the byte string starts with ten digits
of it at most, the tenth a single bit, and then the number is their sum and has 64 bits; in every
other case it fails where it stands. Writing gives the shortest form, as long as the bits of the
number say: it is read back whatever follows it, and no byte string is read as the number in fewer
bytes. -/
theorem decode_exact :
    (∀ bytes n count, decode bytes = some (n, count) ↔ Digits 10 bytes n count) ∧
    (∀ bytes n count, decode bytes = some (n, count) → n < 2 ^ 64) ∧
    (∀ cursor : Cursor, (∀ n count, ¬Digits 10 cursor.rest n count) →
      Read.varint cursor = .error (.malformedVarint cursor.offset) cursor) ∧
    ∀ value : UInt64, (encode value.toNat).length = size value.toNat ∧
      (∀ rest, decode (encode value.toNat ++ rest) = some (value.toNat, size value.toNat)) ∧
      ∀ bytes count, decode bytes = some (value.toNat, count) → size value.toNat ≤ count := by
  have exact (bytes : List UInt8) (n count : Nat) :
      decode bytes = some (n, count) ↔ Digits 10 bytes n count := decodeWithin_iff_digits
  refine ⟨exact, ?_, ?_, ?_⟩
  · intro bytes n count read
    obtain ⟨digits, rest, -, -, form⟩ := spells_of_decodeWithin read
    exact form.lt_two_pow
  · intro cursor none
    have failed : decode cursor.rest = .none := by
      refine Option.eq_none_iff_forall_ne_some.2 fun ⟨n, count⟩ read => ?_
      exact none n count ((exact _ _ _).1 read)
    simp only [Read.varint, failed]
  · intro value
    have form : Spells maxBytes (encode value.toNat) value.toNat := spells_encode value.toNat_lt
    refine ⟨length_encode _, fun rest => ?_, fun bytes count read => ?_⟩
    · rw [← length_encode]
      exact form.decodeWithin rest
    · obtain ⟨digits, rest, -, rfl, form⟩ := spells_of_decodeWithin read
      exact (size_le_iff form.pos).2 form.lt_pow

/-- The greatest number of 64 bits takes all ten digits, one more bit is too much for the tenth, and
a number may be padded to more digits than it needs. -/
theorem decode_exact_limits :
    Digits 10 (List.replicate 9 0xff ++ [1]) (2 ^ 64 - 1) 10 ∧
    Read.varint ⟨17, 0, List.replicate 9 0xff ++ [2]⟩ =
      .error (.malformedVarint 17) ⟨17, 0, List.replicate 9 0xff ++ [2]⟩ ∧
    1 < 2 ^ 64 ∧ size 1 ≤ 3 := by
  obtain ⟨exact, bound, fails, shortest⟩ := decode_exact
  have padded : decode [0x81, 0x80, 0x00] = some (1, 3) := by decide
  have greatest : decode (List.replicate 9 0xff ++ [1]) = some (2 ^ 64 - 1, 10) := by decide
  have refused : decode (List.replicate 9 0xff ++ [2]) = none := by decide
  refine ⟨(exact _ _ _).1 greatest, ?_, bound _ _ _ padded, (shortest 1).2.2 _ _ padded⟩
  refine fails ⟨17, 0, List.replicate 9 0xff ++ [2]⟩ fun n count digits => ?_
  cases refused.symm.trans ((exact _ _ _).2 digits)

end Protobuf.Wire.Varint
