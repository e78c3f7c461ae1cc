import Protobuf.Wire.Record

/-! # Unknown fields

A record whose tag a message does not declare is kept as the bytes it was read from, so that
writing the message again gives it back unchanged. -/

namespace Protobuf.Wire

/-- A record that is kept as it was read. -/
structure UnknownField where
  tag : Nat
  wireType : WireType
  /-- The bytes of the key and the value. -/
  raw : List UInt8
deriving DecidableEq, Repr

/-- A record, kept as it was read. -/
def Record.keep (record : Record) : UnknownField :=
  ⟨record.key.tag, record.key.wireType, record.raw⟩

namespace Read

/-- The bytes of a value of a wire type, whatever they mean. -/
def skip (maxLength : Nat) (wireType : WireType) : Read (List UInt8) := fun cursor =>
  match rawValue maxLength wireType cursor with
  | .ok _ finish => .ok (cursor.upTo finish) finish
  | .error error finish => .error error finish

/-- A record, kept as it is read. -/
def unknownField (maxLength : Nat) : Read UnknownField := fun cursor =>
  match key cursor with
  | .error error finish => .error error finish
  | .ok key inner =>
    match skip maxLength key.wireType inner with
    | .ok _ finish => .ok ⟨key.tag, key.wireType, cursor.upTo finish⟩ finish
    | .error error finish => .error error finish

end Read

/-- The records of some bytes, all of them kept as they are read. -/
def UnknownField.readAll (maxLength : Nat) (bytes : List UInt8) :
    Except Error (List UnknownField) :=
  match split maxLength { rest := bytes } with
  | (records, none) => .ok (records.map (·.keep))
  | (_, some broken) => .error broken.error

/-- The bytes of a row of unknown fields. -/
def UnknownField.rawAll (fields : List UnknownField) : List UInt8 :=
  fields.flatMap (·.raw)

end Protobuf.Wire
