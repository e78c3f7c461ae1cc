import Protobuf.Proofs.Codec.Decode
import Protobuf.Proofs.Codec.Typing
import Protobuf.Proofs.Schema.Grammar

/-! # Reading accepts the wire grammar

A byte string within the limit for whole messages is read as a message of a type exactly if it is
in the wire grammar of the type. Main statement: `decode_isOk_iff`.

## Implementation notes

Whether a row of records can be applied is a matter of each record alone, because conforming
messages can always be merged. So the grammar has to be compared with single records only. -/

namespace Protobuf

open Wire

namespace Wire

variable {maxLength place : Nat} {wireType : WireType} {bytes : List UInt8}

theorem payload_iff (place : Nat) {payload : List UInt8} :
    Payload maxLength bytes payload ↔ ∃ start,
      RawValue.Spells maxLength place .lengthDelimited bytes (.payload ⟨start, payload⟩) := by
  constructor
  · rintro ⟨form, short⟩
    exact ⟨_, .payload form short⟩
  · rintro ⟨start, form⟩
    generalize type : WireType.lengthDelimited = wireType at form
    cases form with
    | payload form short => exact .intro form short

/-- Words are laid out as their wire type says. -/
theorem framed_word_iff {layout : Word} :
    Framed maxLength layout.wireType bytes ↔ ∃ n, layout.Spells bytes n := by
  constructor
  · intro framed
    cases layout with
    | varint =>
      cases framed with
      | varint form => exact ⟨_, .varint form⟩
    | fixed64 =>
      cases framed with
      | fixed64 width => exact ⟨_, .fixed64 width⟩
    | fixed32 =>
      cases framed with
      | fixed32 width => exact ⟨_, .fixed32 width⟩
  · rintro ⟨n, form⟩
    cases form with
    | varint form => exact .varint form
    | fixed64 width => exact .fixed64 width
    | fixed32 width => exact .fixed32 width

theorem RawValue.spells_word_iff {layout : Word} {n : Nat} :
    RawValue.Spells maxLength place wireType bytes (.word layout n) ↔
      wireType = layout.wireType ∧ layout.Spells bytes n := by
  constructor
  · intro form
    cases form with
    | word form => exact ⟨rfl, form⟩
  · rintro ⟨rfl, form⟩
    exact .word form

/-- A value is read from exactly what is laid out as its wire type says. -/
theorem framed_iff (place : Nat) :
    Framed maxLength wireType bytes ↔
      ∃ raw, RawValue.Spells maxLength place wireType bytes raw := by
  constructor
  · intro framed
    cases framed with
    | varint form => exact ⟨_, .word (.varint form)⟩
    | fixed64 width => exact ⟨_, .word (.fixed64 width)⟩
    | fixed32 width => exact ⟨_, .word (.fixed32 width)⟩
    | lengthDelimited form =>
      obtain ⟨start, spells⟩ := (payload_iff place).1 form
      exact ⟨_, spells⟩
  · rintro ⟨raw, form⟩
    cases form with
    | word form => exact framed_word_iff.2 ⟨_, form⟩
    | payload form short => exact .lengthDelimited (.intro form short)

/-- A run is words of its layout put together. -/
theorem run_iff (maxLength : Nat) {layout : Word} {payload : List UInt8} :
    (∃ ns, layout.Run payload ns) ↔ ∃ elements : List (List UInt8), payload = elements.flatten ∧
      ∀ element ∈ elements, Framed maxLength layout.wireType element := by
  constructor
  · rintro ⟨ns, run⟩
    induction run with
    | nil => exact ⟨[], rfl, fun element held => absurd held List.not_mem_nil⟩
    | @cons bytes rest n ns head tail ih =>
      obtain ⟨elements, rfl, each⟩ := ih
      exact ⟨bytes :: elements, rfl, List.forall_mem_cons.2 ⟨framed_word_iff.2 ⟨n, head⟩, each⟩⟩
  · rintro ⟨elements, rfl, each⟩
    induction elements with
    | nil => exact ⟨[], .nil⟩
    | cons element rest ih =>
      obtain ⟨here, later⟩ := List.forall_mem_cons.1 each
      obtain ⟨n, form⟩ := framed_word_iff.1 here
      obtain ⟨ns, run⟩ := ih later
      exact ⟨n :: ns, .cons form run⟩

end Wire

/-! ## Values -/

namespace Scalar

variable {maxLength place : Nat} {wireType : WireType} {bytes : List UInt8}

/-- A number is read from exactly the words of its layout. -/
theorem read?_numeric_isOk_iff {kind : Numeric} :
    (∃ raw value, RawValue.Spells maxLength place wireType bytes raw ∧
      (numeric kind).read? raw = some (.ok value)) ↔
      wireType = kind.layout.wireType ∧ Framed maxLength kind.layout.wireType bytes := by
  rw [framed_word_iff]
  constructor
  · rintro ⟨raw, value, form, read⟩
    cases raw with
    | payload slice => cases read
    | word layout n =>
      obtain ⟨same, form⟩ := RawValue.spells_word_iff.1 form
      by_cases here : layout = kind.layout
      · subst here
        exact ⟨same, n, form⟩
      · simp [read?, RawValue.word?, here] at read
  · rintro ⟨rfl, n, form⟩
    refine ⟨.word kind.layout n, kind.ofWord n, .word form, ?_⟩
    simp [read?, RawValue.word?]

/-- A type with a scalar form is a number, a text or bytes. -/
theorem cases_of_ofType {type : FieldType} {scalar : Scalar}
    (ofType : FieldForm.OfType type (.single scalar)) :
    (∃ kind, scalar = .numeric kind ∧ type.isPackable ∧ type.wireType = kind.layout.wireType) ∨
      type = .builtin .string ∧ scalar = .string ∨ type = .builtin .bytes ∧ scalar = .bytes := by
  generalize single : FieldForm.single scalar = form at ofType
  cases ofType with
  | builtin type =>
    cases single
    cases type with
    | string => exact .inr (.inl ⟨rfl, rfl⟩)
    | bytes => exact .inr (.inr ⟨rfl, rfl⟩)
    | _ => exact .inl ⟨_, rfl, rfl, rfl⟩
  | enum name =>
    cases single
    exact .inl ⟨.enum, rfl, rfl, rfl⟩
  | message => cases single

/-- Numbers are framed by their wire type. -/
theorem spells_iff_framed {type : FieldType} (packable : type.isPackable) :
    type.Spells maxLength bytes ↔ Framed maxLength type.wireType bytes := by
  constructor
  · intro spells
    cases spells with
    | number _ form => exact form
    | string => cases packable
    | bytes => cases packable
  · exact .number packable

/-- A scalar is read from exactly what the grammar has for its type. -/
theorem read?_isOk_iff (place : Nat) {type : FieldType} {scalar : Scalar}
    (ofType : FieldForm.OfType type (.single scalar)) :
    (∃ raw value, RawValue.Spells maxLength place wireType bytes raw ∧
      scalar.read? raw = some (.ok value)) ↔
      wireType = type.wireType ∧ type.Spells maxLength bytes := by
  rcases cases_of_ofType ofType with ⟨kind, rfl, packable, layout⟩ | ⟨rfl, rfl⟩ | ⟨rfl, rfl⟩
  · rw [read?_numeric_isOk_iff, spells_iff_framed packable, layout]
  · constructor
    · rintro ⟨raw, value, form, read⟩
      cases raw with
      | word layout n => cases read
      | payload slice =>
        cases form with
        | @payload length payload form short =>
          refine ⟨rfl, ?_⟩
          simp only [read?, RawValue.payload?, Option.map_some, Option.some.injEq] at read
          split at read
          · rename_i text decoded
            obtain rfl := Text.Utf8.decode?_eq_some_iff.1 decoded
            exact .string (.intro form short)
          · cases read
    · rintro ⟨rfl, spells⟩
      cases spells with
      | number packable => cases packable
      | @string _ text form =>
        obtain ⟨start, form⟩ := (payload_iff place).1 form
        exact ⟨_, .string text, form, by simp [read?, RawValue.payload?]⟩
  · constructor
    · rintro ⟨raw, value, form, read⟩
      cases raw with
      | word layout n => cases read
      | payload slice =>
        cases form with
        | @payload length payload form short => exact ⟨rfl, .bytes (.intro form short)⟩
    · rintro ⟨rfl, spells⟩
      cases spells with
      | number packable => cases packable
      | @bytes _ payload form =>
        obtain ⟨start, form⟩ := (payload_iff place).1 form
        exact ⟨_, .bytes payload, form, rfl⟩

/-- The values of a repeated field are read from exactly a single one or a run of packed ones. -/
theorem readAll?_isOk_iff (place : Nat) {type : FieldType} {scalar : Scalar}
    (ofType : FieldForm.OfType type (.single scalar)) :
    (∃ raw values, RawValue.Spells maxLength place wireType bytes raw ∧
      scalar.readAll? raw = some (.ok values)) ↔
      wireType = type.wireType ∧ type.Spells maxLength bytes ∨
        wireType = .lengthDelimited ∧ type.isPackable ∧ ∃ elements : List (List UInt8),
          Payload maxLength bytes elements.flatten ∧
            ∀ element ∈ elements, Framed maxLength type.wireType element := by
  rw [← read?_isOk_iff place ofType]
  constructor
  · rintro ⟨raw, values, form, read⟩
    by_cases single : scalar.isPackable = false ∨ raw.payload? = none
    · obtain ⟨value, read, -⟩ := (readAll?_single_iff single).1 read
      exact .inl ⟨raw, value, form, read⟩
    · rcases cases_of_ofType ofType with ⟨kind, rfl, packable, layout⟩ | ⟨rfl, rfl⟩ | ⟨rfl, rfl⟩
      · cases raw with
        | word layout n => exact absurd (.inr rfl) single
        | payload slice =>
          obtain ⟨words, run, -⟩ := readAll?_payload_iff.1 read
          obtain ⟨elements, same, each⟩ := (run_iff maxLength).1 ⟨words, run⟩
          obtain rfl := RawValue.wireType_of_spells form
          refine .inr ⟨rfl, packable, elements, ?_, layout ▸ each⟩
          exact same ▸ (payload_iff place).2 ⟨slice.offset, form⟩
      · exact absurd (.inl rfl) single
      · exact absurd (.inl rfl) single
  · rintro (⟨raw, value, form, read⟩ | ⟨rfl, packable, elements, form, each⟩)
    · refine ⟨raw, [value], form, (readAll?_single_iff ?_).2 ⟨value, read, rfl⟩⟩
      cases scalar with
      | numeric kind =>
        cases raw with
        | word layout n => exact .inr rfl
        | payload slice => cases read
      | _ => exact .inl rfl
    · rcases cases_of_ofType ofType with ⟨kind, rfl, -, layout⟩ | ⟨rfl, rfl⟩ | ⟨rfl, rfl⟩
      · obtain ⟨words, run⟩ := (run_iff maxLength).2 ⟨elements, rfl, layout ▸ each⟩
        obtain ⟨start, form⟩ := (payload_iff place).1 form
        exact ⟨_, words.map kind.ofWord, form, readAll?_payload_iff.2 ⟨words, run, rfl⟩⟩
      · cases packable
      · cases packable

end Scalar

namespace CodecSet

variable {schema : Schema} {limits : Limits} {set : CodecSet}
  {nested : String → Slice → Except CodecError Message} {codec : MessageCodec} {name : String}

/-- A payload is read exactly if it is in the language of its type. -/
theorem payload_isOk_iff (place : Nat) {type : String} {wireType : WireType} {bytes : List UInt8}
    {language : List UInt8 → Prop}
    (inside : ∀ start payload, (∃ decoded, nested type ⟨start, payload⟩ = .ok decoded) ↔
      language payload) {maxLength : Nat} :
    (∃ slice decoded, RawValue.Spells maxLength place wireType bytes (.payload slice) ∧
      nested type slice = .ok decoded) ↔
      wireType = .lengthDelimited ∧ ∃ payload, Payload maxLength bytes payload ∧
        language payload := by
  constructor
  · rintro ⟨⟨start, payload⟩, decoded, form, done⟩
    obtain rfl := RawValue.wireType_of_spells form
    have there := (inside start payload).1 ⟨decoded, done⟩
    exact ⟨rfl, payload, (payload_iff place).2 ⟨start, form⟩, there⟩
  · rintro ⟨rfl, payload, form, there⟩
    obtain ⟨start, form⟩ := (payload_iff place).1 form
    obtain ⟨decoded, done⟩ := (inside start payload).2 there
    exact ⟨⟨start, payload⟩, decoded, form, done⟩

/-- Messages are read for every payload in the language of their type, at any place. -/
def ReadsLanguage (schema : Schema) (limits : Limits)
    (nested : String → Slice → Except CodecError Message) (depth : Nat) : Prop :=
  ∀ name start payload, (∃ decoded, nested name ⟨start, payload⟩ = .ok decoded) ↔
    schema.Language limits name depth payload

section Fields

variable {type : MessageType} {field : Field} {depth : Nat}

theorem reads_map_isOk_iff (accepted : schema.Accepted) (held : type ∈ schema.types)
    (declared : field ∈ type.fields) {key value : FieldType} (kind : field.type = .map key value)
    (inside : ReadsLanguage schema limits nested (depth + 1)) (place : Nat) (wireType : WireType)
    (bytes : List UInt8) :
    (∃ raw value, RawValue.Spells limits.maxLength place wireType bytes raw ∧
      Reads ((ofSchema schema).withLimits limits) nested (.ofField type.name field) raw value) ↔
      schema.ValueForm limits type field depth wireType bytes := by
  obtain ⟨builtin, form, rfl, -, -, found⟩ := exists_entryCodec accepted held declared kind
  rw [Schema.valueForm_map_iff kind, ← payload_isOk_iff place (inside _),
    FieldForm.ofField_map kind]
  constructor
  · rintro ⟨raw, value, spells, reads⟩
    cases reads with
    | map _ done => exact ⟨_, _, spells, done⟩
  · rintro ⟨slice, decoded, spells, done⟩
    exact ⟨_, _, spells, .map found done⟩

theorem reads_message_isOk_iff {name : String} (kind : field.type = .message name)
    (inside : ReadsLanguage schema limits nested (depth + 1)) (place : Nat) (wireType : WireType)
    (bytes : List UInt8) :
    (∃ raw value, RawValue.Spells limits.maxLength place wireType bytes raw ∧
      Reads set nested (.ofField type.name field) raw value) ↔
      schema.ValueForm limits type field depth wireType bytes := by
  have ofType : FieldForm.OfType field.type (.message name) := kind ▸ .message name
  rw [Schema.valueForm_message_iff kind, ← payload_isOk_iff place (inside _)]
  cases repeated : field.cardinality.isRepeated with
  | false =>
    rw [ofType.ofField repeated]
    constructor
    · rintro ⟨raw, value, spells, reads⟩
      cases reads with
      | message done => exact ⟨_, _, spells, done⟩
    · rintro ⟨slice, decoded, spells, done⟩
      exact ⟨_, _, spells, .message done⟩
  | true =>
    have many := ofType.many type.name repeated
    generalize FieldForm.ofField type.name field = form at many
    cases many
    constructor
    · rintro ⟨raw, value, spells, reads⟩
      cases reads with
      | messages done => exact ⟨_, _, spells, done⟩
    · rintro ⟨slice, decoded, spells, done⟩
      exact ⟨_, _, spells, .messages done⟩

theorem reads_scalar_isOk_iff {scalar : Scalar}
    (ofType : FieldForm.OfType field.type (.single scalar)) (isMap : field.type.isMap = false)
    (isMessage : field.isMessage = false) (place : Nat) (wireType : WireType)
    (bytes : List UInt8) :
    (∃ raw value, RawValue.Spells limits.maxLength place wireType bytes raw ∧
      Reads set nested (.ofField type.name field) raw value) ↔
      schema.ValueForm limits type field depth wireType bytes := by
  rw [Schema.valueForm_scalar_iff isMap isMessage]
  cases repeated : field.cardinality.isRepeated with
  | false =>
    rw [ofType.ofField repeated]
    simp only [Bool.false_eq_true, false_and, or_false]
    rw [← Scalar.read?_isOk_iff place ofType]
    constructor
    · rintro ⟨raw, value, spells, reads⟩
      cases reads with
      | single read => exact ⟨raw, value, spells, read⟩
    · rintro ⟨raw, value, spells, read⟩
      exact ⟨raw, value, spells, .single read⟩
  | true =>
    simp only [true_and]
    rw [← Scalar.readAll?_isOk_iff place ofType]
    have many := ofType.many type.name repeated
    generalize FieldForm.ofField type.name field = form at many
    constructor
    · rintro ⟨raw, value, spells, reads⟩
      cases many with
      | repeated =>
        cases reads with
        | repeated read => exact ⟨raw, _, spells, read⟩
      | packed =>
        cases reads with
        | packed read => exact ⟨raw, _, spells, read⟩
    · rintro ⟨raw, values, spells, read⟩
      cases many with
      | repeated => exact ⟨raw, _, spells, .repeated read⟩
      | packed => exact ⟨raw, _, spells, .packed read⟩

/-- A record's value is read exactly if it is a value of its field. -/
theorem reads_isOk_iff (accepted : schema.Accepted) (held : type ∈ schema.types)
    (declared : field ∈ type.fields) (inside : ReadsLanguage schema limits nested (depth + 1))
    (place : Nat) (wireType : WireType) (bytes : List UInt8) :
    (∃ raw value, RawValue.Spells limits.maxLength place wireType bytes raw ∧
      Reads ((ofSchema schema).withLimits limits) nested (.ofField type.name field) raw value) ↔
      schema.ValueForm limits type field depth wireType bytes := by
  cases isMap : field.type.isMap with
  | true =>
    obtain ⟨key, value, kind⟩ := FieldType.exists_of_isMap isMap
    exact reads_map_isOk_iff accepted held declared kind inside _ _ _
  | false =>
    cases isMessage : field.isMessage with
    | true =>
      obtain ⟨name, kind⟩ := field.exists_of_isMessage isMessage
      exact reads_message_isOk_iff kind inside _ _ _
    | false =>
      obtain ⟨form, ofType⟩ := FieldForm.exists_ofType isMap
      obtain ⟨scalar, rfl⟩ : ∃ scalar, form = .single scalar := by
        generalize kind : field.type = fieldType at ofType
        cases ofType with
        | builtin => exact ⟨_, rfl⟩
        | enum => exact ⟨_, rfl⟩
        | message => simp [Field.isMessage, kind] at isMessage
      exact reads_scalar_isOk_iff ofType isMap isMessage _ _ _

end Fields

/-! ## Records and messages -/

/-- A record stands for a message exactly if it is a record of the type. -/
theorem recordMessage_isOk_iff (accepted : schema.Accepted) {type : MessageType}
    (held : type ∈ schema.types) {depth : Nat}
    (inside : ReadsLanguage schema limits nested (depth + 1)) (place : Nat) (bytes : List UInt8) :
    (∃ record : Record, record.Spells limits.maxLength place bytes ∧
      ∃ message, recordMessage ((ofSchema schema).withLimits limits) nested
        (.ofType (.ofSchema schema) type) record = .ok message) ↔
      schema.RecordForm limits type depth bytes := by
  have coherent := (coherent_ofSchema accepted).withLimits limits
  have found : ((ofSchema schema).withLimits limits).get? type.name =
      some (.ofType (.ofSchema schema) type) := get?_ofSchema_of_mem accepted held
  have good := coherent _ _ found
  simp only [recordMessage_eq_ok_iff good]
  constructor
  · rintro ⟨record, ⟨-, -, front, value, rfl, start, form⟩, message, stands⟩
    rcases stands with ⟨plan, held_value, planned, reads, -⟩ | ⟨unplanned, -⟩
    · obtain ⟨field, declared, tagged, rfl⟩ := (reader?_ofType_iff accepted held).1 planned
      refine .declared start declared tagged ?_
      exact (reads_isOk_iff accepted held declared inside _ _ _).1 ⟨_, _, form, reads⟩
    · exact .unknown start ((reader?_ofType_eq_none_iff accepted held).1 unplanned)
        ((framed_iff _).2 ⟨_, form⟩)
  · intro form
    cases form with
    | @unknown _ _ front value key start undeclared form =>
      obtain ⟨raw, form⟩ := (framed_iff (place + front.length)).1 form
      exact ⟨⟨place, key, raw, front ++ value⟩, ⟨rfl, rfl, front, value, rfl, start, form⟩, _,
        .inr ⟨(reader?_ofType_eq_none_iff accepted held).2 undeclared, rfl⟩⟩
    | @declared _ _ front value key field start declared tagged form =>
      obtain ⟨raw, held_value, form, reads⟩ :=
        (reads_isOk_iff accepted held declared inside (place + front.length) _ _).2 form
      exact ⟨⟨place, key, raw, front ++ value⟩, ⟨rfl, rfl, front, value, rfl, start, form⟩, _,
        .inl ⟨_, held_value, (reader?_ofType_iff accepted held).2 ⟨field, declared, tagged, rfl⟩,
          reads, rfl⟩⟩

/-- A buffer is a row of records with a property exactly if it is byte strings put together that
each are such a record. -/
theorem exists_row_iff {maxLength : Nat} {holds : Record → Prop} {form : List UInt8 → Prop}
    (each : ∀ place bytes, (∃ record : Record, record.Spells maxLength place bytes ∧ holds record) ↔
      form bytes) (place : Nat) (bytes : List UInt8) :
    (∃ records, Record.Row maxLength place bytes records ∧ ∀ record ∈ records, holds record) ↔
      ∃ parts : List (List UInt8), bytes = parts.flatten ∧ ∀ part ∈ parts, form part := by
  constructor
  · rintro ⟨records, row, hold⟩
    induction row with
    | nil => exact ⟨[], rfl, fun part held => absurd held List.not_mem_nil⟩
    | @cons place first rest record records head tail ih =>
      obtain ⟨here, later⟩ := List.forall_mem_cons.1 hold
      obtain ⟨parts, rfl, forms⟩ := ih later
      exact ⟨first :: parts, rfl,
        List.forall_mem_cons.2 ⟨(each place first).1 ⟨record, head, here⟩, forms⟩⟩
  · rintro ⟨parts, rfl, forms⟩
    induction parts generalizing place with
    | nil => exact ⟨[], .nil, fun record held => absurd held List.not_mem_nil⟩
    | cons part rest ih =>
      obtain ⟨here, later⟩ := List.forall_mem_cons.1 forms
      obtain ⟨record, head, holds⟩ := (each place part).2 here
      obtain ⟨records, tail, hold⟩ := ih (place + part.length) later
      exact ⟨record :: records, .cons head tail, List.forall_mem_cons.2 ⟨holds, hold⟩⟩

/-- A message is read at a depth exactly if it is in the language of its type at this depth. -/
theorem readsLanguage_decodeWithin (accepted : schema.Accepted) {levels depth : Nat}
    (left : levels + depth = limits.maxDepth + 1) :
    ReadsLanguage schema limits (decodeWithin ((ofSchema schema).withLimits limits) levels)
      depth := by
  have coherent := (coherent_ofSchema accepted).withLimits limits
  induction levels generalizing depth with
  | zero =>
    intro name start bytes
    constructor
    · rintro ⟨message, done⟩
      cases done
    · intro language
      cases language with
      | intro held deep each => omega
  | succ levels ih =>
    intro name start bytes
    have left : levels + (depth + 1) = limits.maxDepth + 1 := by omega
    have inside := ih left
    have conforming := readsConforming_decodeWithin coherent levels
    simp only [decodeWithin_eq_ok_iff coherent]
    constructor
    · rintro ⟨message, codec, records, found, row, folded⟩
      obtain ⟨type, held, rfl, rfl⟩ := (get?_ofSchema_iff accepted).1 found
      have stand := (foldlM_isOk_iff coherent found conforming row rfl
        (conformsTo_new _ _ _)).1 ⟨message, folded⟩
      obtain ⟨parts, rfl, forms⟩ := (exists_row_iff (recordMessage_isOk_iff accepted held inside)
        0 bytes).1 ⟨records, row, stand⟩
      exact .intro held (by omega) forms
    · intro language
      cases language with
      | @intro type _ parts held deep forms =>
        have found : ((ofSchema schema).withLimits limits).get? type.name =
            some (.ofType (.ofSchema schema) type) := get?_ofSchema_of_mem accepted held
        obtain ⟨records, row, stand⟩ := (exists_row_iff
          (recordMessage_isOk_iff accepted held inside) 0 parts.flatten).2 ⟨parts, rfl, forms⟩
        obtain ⟨message, folded⟩ := (foldlM_isOk_iff coherent found conforming row rfl
          (conformsTo_new _ _ _)).2 stand
        exact ⟨message, _, records, found, row, folded⟩

/-- A byte string within the limit for whole messages is read as a message of a type exactly if it
is in the language of the type. -/
theorem decode_isOk_iff (accepted : schema.Accepted) (limits : Limits) (name : String)
    {bytes : List UInt8} (short : bytes.length ≤ limits.maxMessageSize) :
    (∃ message, ((ofSchema schema).withLimits limits).decode name bytes = .ok message) ↔
      schema.Language limits name 0 bytes := by
  have top : limits.maxDepth + 1 + 0 = limits.maxDepth + 1 := rfl
  rw [← readsLanguage_decodeWithin accepted top name 0 bytes]
  simp [decode_eq_ok_iff, short]

/-- A node with a number and a child is in the language of nodes. -/
theorem decode_isOk_iff_tree :
    Schema.tree.Language {} "Node" 0 [8, 0, 18, 7, 10, 1, 97, 18, 2, 40, 1] :=
  (decode_isOk_iff Schema.accepted_tree {} "Node" (by decide)).1
    ⟨⟨"Node", [(1, .uint32 0),
      (2, .map [(.string "a", .message ⟨"Node", [(5, .bool true)], []⟩)])], []⟩,
      by with_unfolding_all rfl⟩

end CodecSet

end Protobuf
