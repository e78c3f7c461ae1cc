import Protobuf.Codec.Set
import Protobuf.Proofs.Schema.Accepted
import Protobuf.Proofs.Wire.Run

/-! # The wire grammar of a schema

Which byte strings are messages of a type, going by the declarations and the limits alone. A
message is a row of records, and an embedded message or an entry is a payload that is such a row
again, one level deeper.

## Implementation notes

`Language` and `RecordForm` follow each other through payloads. A row is a list of byte strings put
together, so that no further relation is needed for it. -/

namespace Protobuf

open Wire

namespace Wire

/-- Some bytes are a value as its wire type lays it out. -/
inductive Framed (maxLength : Nat) : WireType → List UInt8 → Prop
  | varint {bytes : List UInt8} {n : Nat} (form : Varint.Spells Varint.maxBytes bytes n) :
    Framed maxLength .varint bytes
  | fixed64 {bytes : List UInt8} (width : bytes.length = 8) : Framed maxLength .fixed64 bytes
  | fixed32 {bytes : List UInt8} (width : bytes.length = 4) : Framed maxLength .fixed32 bytes
  | lengthDelimited {bytes payload : List UInt8} (form : Payload maxLength bytes payload) :
    Framed maxLength .lengthDelimited bytes

end Wire

namespace FieldType

/-- Some bytes are a single value of a type that is neither a message nor a map. -/
inductive Spells (maxLength : Nat) : FieldType → List UInt8 → Prop
  | number {type : FieldType} {bytes : List UInt8} (packable : type.isPackable)
    (form : Framed maxLength type.wireType bytes) : Spells maxLength type bytes
  | string {bytes : List UInt8} {text : String}
    (form : Payload maxLength bytes (Text.Utf8.encode text)) :
    Spells maxLength (.builtin .string) bytes
  | bytes {bytes payload : List UInt8} (form : Payload maxLength bytes payload) :
    Spells maxLength (.builtin .bytes) bytes

end FieldType

namespace Schema

mutual

/-- Some bytes are a message of a type, so many levels inside the outermost one. -/
inductive Language (schema : Schema) (limits : Limits) : String → Nat → List UInt8 → Prop
  | intro {type : MessageType} {depth : Nat} {records : List (List UInt8)}
    (held : type ∈ schema.types) (deep : depth ≤ limits.maxDepth)
    (each : ∀ record ∈ records, RecordForm schema limits type depth record) :
    Language schema limits type.name depth records.flatten

/-- Some bytes are a record of a message of a type: a key, and any value for a tag that the type
does not declare, or else a value of the field. -/
inductive RecordForm (schema : Schema) (limits : Limits) :
    MessageType → Nat → List UInt8 → Prop
  | unknown {type : MessageType} {depth : Nat} {front value : List UInt8} {key : Key}
    (start : key.Spells front) (undeclared : ∀ field ∈ type.fields, field.tag ≠ key.tag)
    (form : Framed limits.maxLength key.wireType value) :
    RecordForm schema limits type depth (front ++ value)
  | declared {type : MessageType} {depth : Nat} {front value : List UInt8} {key : Key}
    {field : Field} (start : key.Spells front) (declared : field ∈ type.fields)
    (tagged : field.tag = key.tag)
    (form : ValueForm schema limits type field depth key.wireType value) :
    RecordForm schema limits type depth (front ++ value)

/-- Some bytes are a value of a wire type for a field: a single one, a run of packed numbers, or a
payload that is a message or an entry. -/
inductive ValueForm (schema : Schema) (limits : Limits) :
    MessageType → Field → Nat → WireType → List UInt8 → Prop
  | single {type : MessageType} {field : Field} {depth : Nat} {bytes : List UInt8}
    (form : field.type.Spells limits.maxLength bytes) :
    ValueForm schema limits type field depth field.type.wireType bytes
  | run {type : MessageType} {field : Field} {depth : Nat} {bytes : List UInt8}
    {elements : List (List UInt8)} (repeated : field.cardinality.isRepeated)
    (packable : field.type.isPackable) (form : Payload limits.maxLength bytes elements.flatten)
    (each : ∀ element ∈ elements, Framed limits.maxLength field.type.wireType element) :
    ValueForm schema limits type field depth .lengthDelimited bytes
  | message {type : MessageType} {field : Field} {depth : Nat} {bytes payload : List UInt8}
    {name : String} (kind : field.type = .message name)
    (form : Payload limits.maxLength bytes payload)
    (inside : Language schema limits name (depth + 1) payload) :
    ValueForm schema limits type field depth .lengthDelimited bytes
  | map {type : MessageType} {field : Field} {depth : Nat} {bytes payload : List UInt8}
    {key value : FieldType} (kind : field.type = .map key value)
    (form : Payload limits.maxLength bytes payload)
    (inside : Language schema limits (Name.join type.name (entryName field.name)) (depth + 1)
      payload) :
    ValueForm schema limits type field depth .lengthDelimited bytes

end

variable {schema : Schema} {limits : Limits} {type : MessageType} {field : Field} {depth : Nat}
  {wireType : WireType} {bytes : List UInt8}

/-- The value of a field that refers to a message is a payload in the language of the message. -/
theorem valueForm_message_iff {name : String} (kind : field.type = .message name) :
    ValueForm schema limits type field depth wireType bytes ↔
      wireType = .lengthDelimited ∧ ∃ payload, Payload limits.maxLength bytes payload ∧
        Language schema limits name (depth + 1) payload := by
  constructor
  · intro form
    cases form with
    | single form =>
      rw [kind] at form
      cases form with
      | number packable => cases packable
    | run _ packable =>
      rw [kind] at packable
      cases packable
    | message kind' form inside =>
      cases kind.symm.trans kind'
      exact ⟨rfl, _, form, inside⟩
    | map kind' => cases kind.symm.trans kind'
  · rintro ⟨rfl, payload, form, inside⟩
    exact .message kind form inside

/-- The value of a map field is a payload in the language of its entries. -/
theorem valueForm_map_iff {key value : FieldType} (kind : field.type = .map key value) :
    ValueForm schema limits type field depth wireType bytes ↔
      wireType = .lengthDelimited ∧ ∃ payload, Payload limits.maxLength bytes payload ∧
        Language schema limits (Name.join type.name (entryName field.name)) (depth + 1)
          payload := by
  constructor
  · intro form
    cases form with
    | single form =>
      rw [kind] at form
      cases form with
      | number packable => cases packable
    | run _ packable =>
      rw [kind] at packable
      cases packable
    | message kind' => cases kind.symm.trans kind'
    | map kind' form inside => exact ⟨rfl, _, form, inside⟩
  · rintro ⟨rfl, payload, form, inside⟩
    exact .map kind form inside

/-- The value of any other field is a single scalar, or a run of packed ones if the field is
repeated. -/
theorem valueForm_scalar_iff (unmapped : field.type.isMap = false)
    (scalar : field.isMessage = false) :
    ValueForm schema limits type field depth wireType bytes ↔
      wireType = field.type.wireType ∧ field.type.Spells limits.maxLength bytes ∨
        field.cardinality.isRepeated ∧ wireType = .lengthDelimited ∧ field.type.isPackable ∧
          ∃ elements : List (List UInt8), Payload limits.maxLength bytes elements.flatten ∧
            ∀ element ∈ elements, Framed limits.maxLength field.type.wireType element := by
  constructor
  · intro form
    cases form with
    | single form => exact .inl ⟨rfl, form⟩
    | run repeated packable form each => exact .inr ⟨repeated, rfl, packable, _, form, each⟩
    | message kind => simp [Field.isMessage, kind] at scalar
    | map kind => simp [kind, FieldType.isMap] at unmapped
  · rintro (⟨rfl, form⟩ | ⟨repeated, rfl, packable, elements, form, each⟩)
    · exact .single form
    · exact .run repeated packable form each

end Schema

end Protobuf
