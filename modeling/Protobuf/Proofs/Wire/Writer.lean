import Protobuf.Proofs.Wire.Run
import Protobuf.Wire.Writer

/-! # Forms of what is written

What is written for a word, a key or a payload has the form that reading takes, as long as the
number fits the width of its layout. -/

namespace Protobuf.Wire

/-- How many numbers a layout can tell apart. -/
def Word.size : Word → Nat
  | .varint => UInt64.size
  | .fixed64 => UInt64.size
  | .fixed32 => UInt32.size

theorem Write.length_littleEndian (count n : Nat) : (littleEndian count n).length = count := by
  induction count generalizing n with
  | zero => rfl
  | succ count ih => simp [littleEndian, ih]

/-- Bytes written in base 256 are read back. -/
theorem Read.littleEndian_write (count n : Nat) :
    littleEndian (Write.littleEndian count n) = n % 256 ^ count := by
  induction count generalizing n with
  | zero => simp [Write.littleEndian, littleEndian, Nat.mod_one]
  | succ count ih =>
    have digit : (n % 256).toUInt8.toNat = n % 256 := by simp
    rw [Write.littleEndian, littleEndian, ih, digit, Nat.pow_succ, Nat.mul_comm (256 ^ count) 256,
      Nat.mod_mul]

/-- A written word has the form of its layout. -/
theorem Word.spells_write {layout : Word} {n : Nat} (fits : n < layout.size) :
    layout.Spells (Write.word layout n) n := by
  cases layout with
  | varint => exact .varint (Varint.spells_encode fits)
  | fixed64 =>
    have form : Word.fixed64.Spells (Write.littleEndian 8 n) _ :=
      .fixed64 (Write.length_littleEndian 8 n)
    have small : n % 256 ^ 8 = n := Nat.mod_eq_of_lt fits
    rwa [Read.littleEndian_write, small] at form
  | fixed32 =>
    have form : Word.fixed32.Spells (Write.littleEndian 4 n) _ :=
      .fixed32 (Write.length_littleEndian 4 n)
    have small : n % 256 ^ 4 = n := Nat.mod_eq_of_lt fits
    rwa [Read.littleEndian_write, small] at form

/-- A written key has the form of a key, if records may have its tag. -/
theorem Key.spells_write {key : Key} (pos : 1 ≤ key.tag) (le : key.tag ≤ maxTag) :
    key.Spells (Write.key key) := by
  have small := key.wireType.id_lt
  have bound : key.tag ≤ 536870911 := le
  have value : key.value = key.tag * 8 + key.wireType.id :=
    Nat.mod_eq_of_lt (show _ < 4294967296 by omega)
  refine ⟨?_, pos, le⟩
  rw [Write.key, value]
  exact Varint.spells_encode (show _ < 18446744073709551616 by omega)

/-- A written word is a value of its wire type. -/
theorem RawValue.spells_word {maxLength place : Nat} {layout : Word} {n : Nat}
    (fits : n < layout.size) :
    Spells maxLength place layout.wireType (Write.word layout n) (.word layout n) :=
  .word (Word.spells_write fits)

/-- Bytes that are no longer than a limit and than any length that can be written. -/
structure Short (maxLength : Nat) (bytes : List UInt8) : Prop where
  le : bytes.length ≤ maxLength
  lt : bytes.length < UInt64.size

theorem short_iff {maxLength : Nat} {bytes : List UInt8} :
    Short maxLength bytes ↔ bytes.length ≤ maxLength ∧ bytes.length < UInt64.size :=
  ⟨fun short => ⟨short.le, short.lt⟩, fun ⟨le, lt⟩ => ⟨le, lt⟩⟩

theorem Short.of_le {maxLength : Nat} {bytes more : List UInt8} (short : Short maxLength more)
    (le : bytes.length ≤ more.length) : Short maxLength bytes :=
  ⟨Nat.le_trans le short.le, Nat.lt_of_le_of_lt le short.lt⟩

/-- A short payload that is written is a length-delimited value. -/
theorem RawValue.spells_payload {maxLength : Nat} (place : Nat) {bytes : List UInt8}
    (short : Short maxLength (Write.payload bytes)) :
    ∃ start, Spells maxLength place .lengthDelimited (Write.payload bytes)
      (.payload ⟨start, bytes⟩) := by
  have inner : Short maxLength bytes := short.of_le (by simp [Write.payload])
  exact ⟨_, .payload (Varint.spells_encode inner.lt) inner.le⟩

/-! ## Signed numbers -/

theorem Write.twosComplement_lt (n : Int) : twosComplement n < UInt64.size := by
  simp only [twosComplement, UInt64.size]
  omega

/-- The low half of the two's complement in 64 bits is the one in 32 bits. -/
theorem Write.toInt32_twosComplement (value : Int32) :
    (twosComplement value.toInt).toUInt32.toInt32 = value := by
  have low : (twosComplement value.toInt).toUInt32 = value.toUInt32 := by
    apply UInt32.toNat_inj.1
    have unsigned : value.toUInt32.toNat = value.toBitVec.toNat := rfl
    have signed : value.toInt = value.toBitVec.toInt := rfl
    have bound := value.toBitVec.isLt
    rw [unsigned, signed, BitVec.toInt_eq_toNat_cond]
    simp only [twosComplement, UInt64.size, Nat.toUInt32, UInt32.toNat_ofNat']
    split <;> omega
  rw [low, Int32.toInt32_toUInt32]

/-- The two's complement in 64 bits is the word of the number. -/
theorem Write.toInt64_twosComplement (value : Int64) :
    (twosComplement value.toInt).toUInt64.toInt64 = value := by
  have word : (twosComplement value.toInt).toUInt64 = value.toUInt64 := by
    apply UInt64.toNat_inj.1
    have unsigned : value.toUInt64.toNat = value.toBitVec.toNat := rfl
    have signed : value.toInt = value.toBitVec.toInt := rfl
    have bound := value.toBitVec.isLt
    rw [unsigned, signed, BitVec.toInt_eq_toNat_cond]
    simp only [twosComplement, UInt64.size, Nat.toUInt64, UInt64.toNat_ofNat']
    split <;> omega
  rw [word, Int64.toInt64_toUInt64]

theorem Zigzag.encode_lt_of_int32 (value : Int32) : encode value.toInt < UInt32.size := by
  have above := value.toInt_lt
  have below := value.le_toInt
  simp only [encode, UInt32.size]
  split <;> omega

theorem Zigzag.encode_lt_of_int64 (value : Int64) : encode value.toInt < UInt64.size := by
  have above := value.toInt_lt
  have below := value.le_toInt
  simp only [encode, UInt64.size]
  split <;> omega

end Protobuf.Wire
