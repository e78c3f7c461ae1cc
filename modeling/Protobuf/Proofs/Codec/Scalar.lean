import Protobuf.Codec.Encode
import Protobuf.Proofs.Codec.Coherent
import Protobuf.Proofs.Value.Depth
import Protobuf.Proofs.Wire.Record
import Protobuf.Proofs.Wire.Writer

/-! # Values of a scalar kind

A value is of a kind exactly if the kind has bytes for it. Reading gives values of the kind only,
and what is written for a value of the kind is read back as this value. Main statements:
`Numeric.ofWord_of_toWord?` and `Scalar.spells_write`. -/

namespace Protobuf

open Number Wire

namespace Numeric

variable {kind : Numeric} {word : Nat} {value : Value}

/-- Every word stands for a value of the kind. -/
theorem toWord?_ofWord (kind : Numeric) (word : Nat) :
    (kind.toWord? (kind.ofWord word)).isSome := by
  cases kind <;> rfl

/-- The word of a value fits the layout of the kind. -/
theorem lt_of_toWord? (written : kind.toWord? value = some word) : word < kind.layout.size := by
  unfold toWord? at written
  split at written <;> cases written
  case h_1 value => exact Write.twosComplement_lt _
  case h_2 value => exact value.toUInt64.toNat_lt
  case h_3 value => exact Nat.lt_trans value.toNat_lt (by decide)
  case h_4 value => exact value.toNat_lt
  case h_5 value => exact Nat.lt_trans (Zigzag.encode_lt_of_int32 value) (by decide)
  case h_6 value => exact Zigzag.encode_lt_of_int64 value
  case h_7 value => exact value.toNat_lt
  case h_8 value => exact value.toNat_lt
  case h_9 value => exact value.toUInt32.toNat_lt
  case h_10 value => exact value.toUInt64.toNat_lt
  case h_11 value => cases value <;> decide
  case h_12 value => exact value.bits.toNat_lt
  case h_13 value => exact value.bits.toNat_lt
  case h_14 value => exact Write.twosComplement_lt _

/-- The word of a value stands for the value. -/
theorem ofWord_of_toWord? (written : kind.toWord? value = some word) :
    kind.ofWord word = value := by
  unfold toWord? at written
  split at written <;> cases written
  case h_1 value => exact congrArg Value.int32 (Write.toInt32_twosComplement value)
  case h_5 value =>
    simp only [ofWord, Nat.mod_eq_of_lt (Zigzag.encode_lt_of_int32 value), Zigzag.decode_encode,
      Int32.ofInt_toInt]
  case h_11 value => cases value <;> rfl
  case h_14 value => exact congrArg Value.enum (Write.toInt32_twosComplement value)
  all_goals simp [ofWord]

/-- The word of a value that is zero is zero. -/
theorem word_eq_zero (written : kind.toWord? value = some word) (zero : value.isZero) :
    word = 0 := by
  unfold toWord? at written
  split at written <;> cases written <;>
    simp only [Value.isZero, beq_iff_eq, Bool.not_eq_true'] at zero <;> subst zero <;> rfl

/-- A value of a kind that is zero is the zero of the kind. -/
theorem eq_zero_of_toWord? (written : kind.toWord? value = some word) (zero : value.isZero) :
    value = kind.zero := by
  rw [← ofWord_of_toWord? written, word_eq_zero written zero, Numeric.zero]

end Numeric

namespace Scalar

variable {scalar : Scalar} {value : Value}

/-- A value is of a kind. -/
def Holds (scalar : Scalar) (value : Value) : Prop :=
  (scalar.write? value).isSome

theorem holds_numeric_iff {kind : Numeric} :
    (numeric kind).Holds value ↔ ∃ word, kind.toWord? value = some word := by
  simp [Holds, write?, Numeric.write?, Option.isSome_iff_exists]

theorem holds_string_iff : string.Holds value ↔ ∃ text, value = .string text := by
  cases value <;> simp [Holds, write?]

theorem holds_bytes_iff : bytes.Holds value ↔ ∃ data, value = .bytes data := by
  cases value <;> simp [Holds, write?]

/-- A value of a scalar kind holds no other values. -/
theorem Holds.isAtom (holds : scalar.Holds value) : value.IsAtom := by
  cases value with
  | message => cases scalar with
    | numeric kind => cases kind <;> cases holds
    | string => cases holds
    | bytes => cases holds
  | list => cases scalar with
    | numeric kind => cases kind <;> cases holds
    | string => cases holds
    | bytes => cases holds
  | map => cases scalar with
    | numeric kind => cases kind <;> cases holds
    | string => cases holds
    | bytes => cases holds
  | _ => trivial

theorem holds_zero (scalar : Scalar) : scalar.Holds scalar.zero := by
  cases scalar with
  | numeric kind => exact holds_numeric_iff.2 (Option.isSome_iff_exists.1 (kind.toWord?_ofWord 0))
  | string => rfl
  | bytes => rfl

/-- A value of a kind that is zero is the zero of the kind. -/
theorem Holds.eq_zero (holds : scalar.Holds value) (zero : value.isZero) :
    value = scalar.zero := by
  cases scalar with
  | numeric kind =>
    obtain ⟨word, written⟩ := holds_numeric_iff.1 holds
    exact Numeric.eq_zero_of_toWord? written zero
  | string =>
    obtain ⟨text, rfl⟩ := holds_string_iff.1 holds
    exact congrArg Value.string (by simpa [Value.isZero] using zero)
  | bytes =>
    obtain ⟨data, rfl⟩ := holds_bytes_iff.1 holds
    exact congrArg Value.bytes (by simpa [Value.isZero] using zero)

/-- Values of a kind that keys may have are equal exactly if they are identical. -/
theorem Holds.same_iff {other : Value} (isKey : scalar.isKey) (holds : scalar.Holds value)
    (holds' : scalar.Holds other) : value.same other ↔ value = other := by
  cases scalar with
  | numeric kind =>
    obtain ⟨word, written⟩ := holds_numeric_iff.1 holds
    obtain ⟨word', written'⟩ := holds_numeric_iff.1 holds'
    unfold Numeric.toWord? at written written'
    split at written <;> split at written' <;> simp_all [Value.same, Scalar.isKey]
  | string =>
    obtain ⟨text, rfl⟩ := holds_string_iff.1 holds
    obtain ⟨text', rfl⟩ := holds_string_iff.1 holds'
    simp [Value.same]
  | bytes =>
    obtain ⟨data, rfl⟩ := holds_bytes_iff.1 holds
    obtain ⟨data', rfl⟩ := holds_bytes_iff.1 holds'
    simp [Value.same]

/-- Reading a record gives a value of the kind. -/
theorem holds_of_read? {raw : RawValue} (read : scalar.read? raw = some (.ok value)) :
    scalar.Holds value := by
  cases scalar with
  | numeric kind =>
    obtain ⟨word, -, same⟩ := Option.map_eq_some_iff.1 read
    cases same
    exact holds_numeric_iff.2 (Option.isSome_iff_exists.1 (kind.toWord?_ofWord word))
  | string =>
    obtain ⟨slice, -, same⟩ := Option.map_eq_some_iff.1 read
    split at same <;> cases same
    rfl
  | bytes =>
    obtain ⟨slice, -, same⟩ := Option.map_eq_some_iff.1 read
    cases same
    rfl

/-- A payload of a repeated number is a run of its words. -/
theorem readAll?_payload_iff {kind : Numeric} {slice : Slice} {values : List Value} :
    (numeric kind).readAll? (.payload slice) = some (.ok values) ↔
      ∃ words, kind.layout.Run slice.bytes words ∧ words.map kind.ofWord = values := by
  have run : ∀ words, readRun kind.layout (.ofSlice slice) = .ok words ↔
      kind.layout.Run slice.bytes words := fun words => readRun_eq_ok_iff
  simp only [readAll?, Option.some.injEq, ← run]
  cases readRun kind.layout (.ofSlice slice) <;> simp [Except.map]

/-- Any other record of a repeated field has one value. -/
theorem readAll?_single_iff {raw : RawValue} {values : List Value}
    (single : scalar.isPackable = false ∨ raw.payload? = none) :
    scalar.readAll? raw = some (.ok values) ↔
      ∃ value, scalar.read? raw = some (.ok value) ∧ [value] = values := by
  unfold readAll?
  split
  · simp [isPackable, RawValue.payload?] at single
  · rcases scalar.read? raw with _ | _ | _ <;> simp [Except.map]

/-- Reading a record of a repeated field gives values of the kind. -/
theorem holds_of_readAll? {raw : RawValue} {values : List Value}
    (read : scalar.readAll? raw = some (.ok values)) : ∀ value ∈ values, scalar.Holds value := by
  by_cases single : scalar.isPackable = false ∨ raw.payload? = none
  · obtain ⟨only, reads, rfl⟩ := (readAll?_single_iff single).1 read
    intro value held
    rw [List.mem_singleton.1 held]
    exact holds_of_read? reads
  · cases scalar with
    | numeric kind =>
      cases raw with
      | word layout n => exact absurd (.inr rfl) single
      | payload slice =>
        obtain ⟨words, -, rfl⟩ := readAll?_payload_iff.1 read
        intro value held
        obtain ⟨word, -, rfl⟩ := List.mem_map.1 held
        exact holds_numeric_iff.2 (Option.isSome_iff_exists.1 (kind.toWord?_ofWord word))
    | string => exact absurd (.inl rfl) single
    | bytes => exact absurd (.inl rfl) single

/-! ## Writing -/

/-- What is written for a value is read back, wherever it stands. -/
theorem spells_write {maxLength : Nat} {bytes : List UInt8}
    (written : scalar.write? value = some bytes) (short : Short maxLength bytes) (place : Nat) :
    ∃ raw, RawValue.Spells maxLength place scalar.wireType bytes raw ∧
      scalar.read? raw = some (.ok value) ∧ scalar.readAll? raw = some (.ok [value]) := by
  cases scalar with
  | numeric kind =>
    obtain ⟨word, found, rfl⟩ := Option.map_eq_some_iff.1 written
    have read : (numeric kind).read? (.word kind.layout word) = some (.ok value) := by
      simp [read?, RawValue.word?, Numeric.ofWord_of_toWord? found]
    exact ⟨_, RawValue.spells_word (Numeric.lt_of_toWord? found), read,
      (readAll?_single_iff (.inr rfl)).2 ⟨value, read, rfl⟩⟩
  | string =>
    obtain ⟨text, rfl⟩ := holds_string_iff.1 (Option.isSome_iff_exists.2 ⟨bytes, written⟩)
    obtain rfl := Option.some.inj written
    obtain ⟨start, form⟩ := RawValue.spells_payload place short
    have read : string.read? (.payload ⟨start, Text.Utf8.encode text⟩) =
        some (.ok (.string text)) := by
      simp [read?, RawValue.payload?]
    exact ⟨_, form, read, (readAll?_single_iff (.inl rfl)).2 ⟨_, read, rfl⟩⟩
  | bytes =>
    obtain ⟨data, rfl⟩ := holds_bytes_iff.1 (Option.isSome_iff_exists.2 ⟨bytes, written⟩)
    obtain rfl := Option.some.inj written
    obtain ⟨start, form⟩ := RawValue.spells_payload place short
    exact ⟨_, form, rfl, rfl⟩

/-- Values of a kind are written as a run of their words. -/
theorem run_writeEach {kind : Numeric} {values : List Value}
    (hold : ∀ value ∈ values, (numeric kind).Holds value) :
    ∃ bytes words, writeEach kind.write? values = some bytes ∧ kind.layout.Run bytes words ∧
      words.map kind.ofWord = values := by
  induction values with
  | nil => exact ⟨[], [], rfl, .nil, rfl⟩
  | cons value rest ih =>
    obtain ⟨here, later⟩ := List.forall_mem_cons.1 hold
    obtain ⟨word, found⟩ := holds_numeric_iff.1 here
    obtain ⟨bytes, words, written, run, same⟩ := ih later
    refine ⟨Write.word kind.layout word ++ bytes, word :: words, ?_,
      .cons (Word.spells_write (Numeric.lt_of_toWord? found)) run, ?_⟩
    · simp [writeEach, Numeric.write?, found, written]
    · rw [List.map_cons, same, Numeric.ofWord_of_toWord? found]

/-! ## Places -/

/-- A value is read alike wherever it stands. -/
theorem read?_atStart_iff {raw : RawValue} :
    scalar.read? raw.atStart = some (.ok value) ↔ scalar.read? raw = some (.ok value) := by
  cases raw with
  | word layout n => exact Iff.rfl
  | payload slice =>
    cases scalar with
    | numeric kind => exact Iff.rfl
    | bytes => exact Iff.rfl
    | string =>
      simp only [read?, RawValue.atStart, RawValue.payload?, Option.map_some, Option.some.injEq]
      cases Text.Utf8.decode? slice.bytes <;> simp

/-- The values of a repeated field are read alike wherever they stand. -/
theorem readAll?_atStart_iff {raw : RawValue} {values : List Value} :
    scalar.readAll? raw.atStart = some (.ok values) ↔ scalar.readAll? raw = some (.ok values) := by
  cases raw with
  | word layout n => exact Iff.rfl
  | payload slice =>
    cases scalar with
    | numeric kind => simp only [RawValue.atStart, readAll?_payload_iff]
    | string =>
      rw [readAll?_single_iff (.inl rfl), readAll?_single_iff (.inl rfl)]
      simp only [read?_atStart_iff]
    | bytes => exact Iff.rfl

end Scalar

end Protobuf
