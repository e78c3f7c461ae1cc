import Protobuf.Proofs.Codec.Monoid
import Protobuf.Proofs.Codec.Provenance
import Protobuf.Proofs.Schema.Parts

/-! # Unknown records are kept

A message that was read has the records of its bytes that its type does not declare, byte for byte
and in their order, and so does every message inside it, for the payloads it was read from. Writing
gives them back behind the fields. Main statement: `decode_unknown`. -/

namespace Protobuf

open Wire

namespace Schema

variable {schema : Schema} {maxLength : Nat}

/-- A value has no messages in it, or else, as a message or as what a field holds, it knows what is
undeclared in the records it was read from. -/
inductive Carried (schema : Schema) (maxLength : Nat) : Value → Prop
  | atom {value : Value} (atom : value.IsAtom) : Carried schema maxLength value
  | message {origin : Provenance} {message : Message}
    (carries : schema.Carries maxLength origin message) :
    Carried schema maxLength (.message message)
  | field {type : MessageType} {field : Field} {origin : Provenance} {value : Value}
    (held : type ∈ schema.types) (declared : field ∈ type.fields)
    (holds : schema.FieldHolds field value)
    (carries : schema.FieldCarries maxLength type.name field origin value) :
    Carried schema maxLength value

/-- What a message does not know is, byte for byte, the undeclared records it was read from. -/
theorem Carries.exists_raw {origin : Provenance} {message : Message}
    (carries : schema.Carries maxLength origin message) :
    ∃ type ∈ schema.types, type.name = message.typeName ∧
      UnknownField.rawAll message.unknown =
        (type.undeclared origin.records).flatMap (·.raw) := by
  cases carries with
  | intro held named unknown =>
    refine ⟨_, held, named, ?_⟩
    rw [UnknownField.rawAll, unknown, List.flatMap_map]
    rfl

theorem Carries.carried_of_get? (accepted : schema.Accepted) {origin : Provenance}
    {message : Message} (carries : schema.Carries maxLength origin message)
    (conforms : schema.Conforms message) {tag : Nat} {value : Value}
    (found : message.get? tag = some value) : schema.Carried maxLength value := by
  cases conforms with
  | intro held named _ declared holds =>
    obtain ⟨field, among, rfl⟩ := declared tag (by rw [found]; rfl)
    exact .field held among (holds field among value found)
      (((carries_iff accepted held named).1 carries).fields field among value found)

theorem EachCarries.exists_of_mem {name : String} {records : List Record} {messages : List Message}
    (each : schema.EachCarries maxLength name records messages) {message : Message}
    (among : message ∈ messages) :
    message.typeName = name ∧ ∃ origin, schema.Carries maxLength origin message := by
  induction messages generalizing records with
  | nil => cases among
  | cons head rest ih =>
    cases each with
    | cons _ _ named carries each =>
      rcases List.mem_cons.1 among with rfl | later
      · exact ⟨named, _, carries⟩
      · exact ih each later

/-- The value of a map is what the entry message holds that it was read from. -/
theorem Carries.carried_entry (accepted : schema.Accepted) {type : MessageType}
    (held : type ∈ schema.types) {field : Field} (declared : field ∈ type.fields)
    {key value : FieldType} (kind : field.type = .map key value) {origin : Provenance}
    {entry : Message} (carries : schema.Carries maxLength origin entry)
    (named : entry.typeName = Name.join type.name (entryName field.name))
    (holds : schema.Holds value (entry.keyAndValue key value).2) :
    schema.Carried maxLength (entry.keyAndValue key value).2 := by
  have among := accepted.entryMessage_mem held declared kind
  have carries := (carries_iff accepted among named.symm).1 carries
  rw [Message.keyAndValue] at holds ⊢
  -- A value that the entry leaves out is that of its type, which was read from nothing.
  cases found : entry.get? 2 with
  | some there =>
    rw [found] at holds
    exact .field among (List.mem_cons_of_mem _ (List.mem_singleton_self _)) (.single rfl holds)
      (carries.fields _ (List.mem_cons_of_mem _ (List.mem_singleton_self _)) there found)
  | none =>
    rw [found] at holds
    cases value with
    | message name =>
      cases holds with
      | message _ conforms =>
        cases conforms with
        | intro held named =>
          cases named
          exact .message (carries_new held)
    | _ => exact .atom (holds.isAtom (by simp))

/-- What is directly inside a value that knows what it should does too. -/
theorem Carried.of_part (accepted : schema.Accepted) {whole part : Value}
    (carried : schema.Carried maxLength whole)
    (conforms : ∀ message, whole = .message message → schema.Conforms message)
    (inside : whole.Part part) : schema.Carried maxLength part := by
  cases carried with
  | atom atom => cases inside <;> exact atom.elim
  | message carries =>
    cases inside with
    | field found => exact carries.carried_of_get? accepted (conforms _ rfl) found
  | @field type field origin _ held declared holds carries =>
    cases carries with
    | plain plain unmapped =>
      have plain : ∀ name, field.type ≠ .message name := fun name kind => by
        simp [Field.isMessage, kind] at plain
      cases holds with
      | single _ holds =>
        have atom := holds.isAtom plain
        cases inside <;> exact atom.elim
      | list _ hold =>
        cases inside with
        | element among => exact .atom ((hold _ among).isAtom plain)
      | map isMap => simp [Field.isMap, FieldType.isMap, isMap] at unmapped
    | message _ _ _ carries =>
      cases inside with
      | field found => exact carries.carried_of_get? accepted (conforms _ rfl) found
    | messages _ _ each =>
      cases inside with
      | element among =>
        obtain ⟨message, there, rfl⟩ := List.mem_map.1 among
        obtain ⟨-, origin, carries⟩ := each.exists_of_mem there
        exact .message carries
    | @map _ _ key value _ entries kind each keys =>
      obtain ⟨builtin, -, rfl, valid, -, -⟩ :=
        CodecSet.exists_entryCodec accepted held declared kind
      cases holds with
      | single single holds =>
        rw [kind] at holds
        cases holds
      | map isMap keys' values =>
        obtain ⟨rfl, rfl⟩ := FieldType.map.inj (kind.symm.trans isMap)
        cases inside with
        | key among => exact .atom ((keys' _ among).isAtom (by simp))
        | value among =>
          have holds := values _ among
          have identity := CodecSet.sameIsEq_holds (CodecSet.isKey_ofBuiltin valid)
          rcases Value.mem_setEntries identity (List.forall_mem_nil _)
            (List.forall_mem_map.2 fun entry there =>
              CodecSet.holds_builtin_iff.1 (keys entry there)) among with before | pair
          · cases before
          · obtain ⟨entry, there, rfl⟩ := List.mem_map.1 pair
            obtain ⟨named, origin, carries⟩ := each.exists_of_mem there
            exact carries.carried_entry accepted held declared kind named holds

/-- Each message inside one that knows what is undeclared in the records it was read from knows this
as well. -/
theorem Carries.of_contains (accepted : schema.Accepted) {origin : Provenance}
    {message inner : Message} (carries : schema.Carries maxLength origin message)
    (conforms : schema.Conforms message)
    (inside : Value.Contains (.message message) (.message inner)) :
    ∃ origin, schema.Carries maxLength origin inner := by
  have carried {value : Value} (inside : Value.Contains (.message message) value) :
      schema.Carried maxLength value := by
    induction inside with
    | refl => exact .message carries
    | tail inside step ih =>
      refine ih.of_part accepted ?_ step
      rintro _ rfl
      exact conforms.of_contains inside
  cases carried inside with
  | atom atom => exact atom.elim
  | message carries => exact ⟨_, carries⟩
  | field held declared holds carries =>
    cases carries with
    | message _ _ _ carries => exact ⟨_, carries⟩
    | plain plain =>
      cases holds with
      | single _ holds =>
        exact (holds.isAtom fun name kind => by simp [Field.isMessage, kind] at plain).elim

end Schema

namespace CodecSet

variable {schema : Schema} {message : Message}

/-- A message is written like the same message without what it does not know, followed by this. -/
theorem encode_known (accepted : schema.Accepted) (limits : Limits)
    (conforms : schema.Conforms message) :
    ∃ known, ((ofSchema schema).withLimits limits).encode { message with unknown := [] } =
        .ok known ∧
      ((ofSchema schema).withLimits limits).encode message =
        .ok (known ++ UnknownField.rawAll message.unknown) := by
  obtain ⟨bytes, done⟩ := exists_encode accepted limits conforms
  obtain ⟨codec, found⟩ := exists_codec_of_encode done
  have declared := declared_of_encode found done
  have whole := encode_eq found declared
  obtain ⟨known, written, -⟩ := map_eq_ok_iff.1 (whole.symm.trans done)
  refine ⟨known, ?_, by rw [whole, written, map_ok]⟩
  calc ((ofSchema schema).withLimits limits).encode { message with unknown := [] }
    _ = (· ++ UnknownField.rawAll []) <$> _ := encode_eq found declared
    _ = (· ++ UnknownField.rawAll []) <$> .ok known := congrArg _ written
    _ = .ok known := congrArg Except.ok (List.append_nil known)

/-- A message that was read knows exactly the records of the bytes that its type does not declare,
as they stand there and in their order, and each message inside it knows those of the payloads it
was read from and merged of. Each of them is written like the same message without what it does not
know, followed by this. -/
theorem decode_unknown (accepted : schema.Accepted) (limits : Limits) {name : String}
    {bytes : List UInt8}
    (done : ((ofSchema schema).withLimits limits).decode name bytes = .ok message) :
    (∃ type ∈ schema.types, type.name = name ∧ ∃ row,
      Record.Row limits.maxLength 0 bytes row ∧
      UnknownField.rawAll message.unknown = (type.undeclared row).flatMap (·.raw) ∧
      schema.Carries limits.maxLength (.ofRow row) message) ∧
    ∀ inner, Value.Contains (.message message) (.message inner) →
      (∃ type ∈ schema.types, type.name = inner.typeName ∧ ∃ origin,
        schema.Carries limits.maxLength origin inner ∧
        UnknownField.rawAll inner.unknown =
          (type.undeclared origin.records).flatMap (·.raw)) ∧
      ∃ known, ((ofSchema schema).withLimits limits).encode { inner with unknown := [] } =
          .ok known ∧
        ((ofSchema schema).withLimits limits).encode inner =
          .ok (known ++ UnknownField.rawAll inner.unknown) := by
  obtain ⟨rfl, conforms⟩ := conforms_of_decode accepted limits done
  obtain ⟨row, apart, carries⟩ :=
    readsCarrying_decodeWithin accepted limits _ _ _ _ (decode_eq_ok_iff.1 done).2
  refine ⟨?_, fun inner inside => ⟨?_, encode_known accepted limits (conforms.of_contains inside)⟩⟩
  · obtain ⟨type, held, named, raw⟩ := carries.exists_raw
    rw [Provenance.records_ofRow] at raw
    exact ⟨type, held, named, row, apart, raw, carries⟩
  · obtain ⟨origin, carries⟩ := carries.of_contains accepted conforms inside
    obtain ⟨type, held, named, raw⟩ := carries.exists_raw
    exact ⟨type, held, named, origin, carries, raw⟩

/-- A part with a number and two records that are not of its type. -/
def foreignPart : Message :=
  ⟨"Part", [(1, .uint32 7)], [⟨3, .varint, [24, 5]⟩, ⟨4, .varint, [32, 1]⟩]⟩

/-- A part that comes in two halves, around a record that the slot does not know, has what is
unknown in both of them, and is written with it. -/
theorem decode_unknown_slot :
    (∃ type ∈ Schema.slots.types, type.name = "Slot" ∧ ∃ row,
      Record.Row 67108864 0 [10, 2, 24, 5, 40, 1, 10, 4, 8, 7, 32, 1] row ∧
      [40, 1] = (type.undeclared row).flatMap (·.raw) ∧
      Schema.slots.Carries 67108864 (.ofRow row)
        ⟨"Slot", [(1, .message foreignPart)], [⟨5, .varint, [40, 1]⟩]⟩) ∧
    ∃ known, ((ofSchema .slots).withLimits {}).encode { foreignPart with unknown := [] } =
        .ok known ∧
      ((ofSchema .slots).withLimits {}).encode foreignPart = .ok (known ++ [24, 5, 32, 1]) := by
  have done : ((ofSchema .slots).withLimits {}).decode "Slot"
      [10, 2, 24, 5, 40, 1, 10, 4, 8, 7, 32, 1] =
        .ok ⟨"Slot", [(1, .message foreignPart)], [⟨5, .varint, [40, 1]⟩]⟩ := by
    with_unfolding_all rfl
  obtain ⟨whole, inside⟩ := decode_unknown Schema.accepted_slots {} done
  have held : Value.Part (.message ⟨"Slot", [(1, .message foreignPart)], [⟨5, .varint, [40, 1]⟩]⟩)
      (.message foreignPart) := .field (show MessageOf.get? _ 1 = _ from rfl)
  exact ⟨whole, (inside foreignPart (.single held)).2⟩

end CodecSet

end Protobuf
