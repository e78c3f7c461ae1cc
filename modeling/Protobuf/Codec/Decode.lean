import Protobuf.Codec.Merge

/-! # Reading messages

A message is the records of its buffer, taken in order: a record of a declared field sets it, adds
to it or is merged into it; any other record is kept as it is. Embedded messages are read from
their payloads, one level deeper.

## Implementation notes

A buffer is taken apart into records before the first of them is given a meaning. What stopped the
taking apart counts only after every record in front of it, and a record that cannot be read is
still compared with the wire type of its field first. -/

namespace Protobuf.CodecSet

open Wire

/-- The error of a record laid out otherwise than its field. -/
def misplaced (codec : MessageCodec) (plan : FieldPlan) (offset : Nat) (found : WireType) :
    CodecError :=
  .wireTypeMismatch offset codec.message plan.field plan.tag plan.form.singleWireType found

/-- A reading of a record by the plan of its field; none if the wire type is another. -/
def expect {α : Type} (codec : MessageCodec) (plan : FieldPlan) (record : Record) :
    Option (Except Error α) → Except CodecError α
  | some (.ok value) => .ok value
  | some (.error error) => .error (.malformed error)
  | none => .error (misplaced codec plan record.offset record.key.wireType)

/-- The message with values added to a field. -/
def append (message : Message) (tag : Nat) (values : List Value) : Message :=
  match message.get? tag with
  | some (.list elements) => message.set tag (.list (elements ++ values))
  | _ => message.set tag (.list values)

/-- The message with an entry set in a map. -/
def setEntry (message : Message) (tag : Nat) (key value : Value) : Message :=
  match message.get? tag with
  | some (.map entries) => message.set tag (.map (Value.setEntry key value entries))
  | _ => message.set tag (.map [(key, value)])

/-- The message after a record of a field. `nested` reads an embedded message of a type. -/
def applyField (set : CodecSet) (nested : String → Slice → Except CodecError Message)
    (codec : MessageCodec) (plan : FieldPlan) (message : Message) (record : Record) :
    Except CodecError Message :=
  match plan.form with
  | .single scalar => do
    let value ← expect codec plan record (scalar.read? record.value)
    return (codec.clearOthers plan message).set plan.tag value
  | .repeated scalar => do
    let values ← expect codec plan record (scalar.readAll? record.value)
    return append message plan.tag values
  | .packed kind => do
    let values ← expect codec plan record ((Scalar.numeric kind).readAll? record.value)
    return append message plan.tag values
  | .message type => do
    let slice ← expect codec plan record (record.value.payload?.map .ok)
    let decoded ← nested type slice
    let cleared := codec.clearOthers plan message
    match cleared.get? plan.tag with
    | some (.message held) =>
      let merged ← set.merge held decoded
      return cleared.set plan.tag (.message merged)
    | _ => return cleared.set plan.tag (.message decoded)
  | .messages type => do
    let slice ← expect codec plan record (record.value.payload?.map .ok)
    let decoded ← nested type slice
    return append message plan.tag [.message decoded]
  | .map entry => do
    let slice ← expect codec plan record (record.value.payload?.map .ok)
    let entryCodec ← set.codec entry
    let decoded ← nested entry slice
    match (decoded.get? 1).or (entryCodec.default? 1), (decoded.get? 2).or (entryCodec.default? 2)
    with
    | some key, some value => return setEntry message plan.tag key value
    | _, _ => throw (.unknownMessage entry)

/-- The message after a record. -/
def applyRecord (set : CodecSet) (nested : String → Slice → Except CodecError Message)
    (codec : MessageCodec) (message : Message) (record : Record) : Except CodecError Message :=
  match codec.reader? record.key.tag with
  | some plan => applyField set nested codec plan message record
  | none => .ok (message.addUnknown [record.keep])

/-- The error that a buffer ends with. -/
def breakError (set : CodecSet) (codec : MessageCodec) : Break → CodecError
  | .key error => .malformed error
  | .value offset key error =>
    match codec.reader? key.tag with
    | none => .malformed error
    | some plan =>
      if plan.accepts key.wireType then
        match plan.form with
        | .map entry => if (set.get? entry).isSome then .malformed error else .unknownMessage entry
        | _ => .malformed error
      else misplaced codec plan offset key.wireType

/-- Read a message of a type; `nested` reads embedded messages. -/
def decodeOver (set : CodecSet) (nested : String → Slice → Except CodecError Message)
    (name : String) (slice : Slice) : Except CodecError Message := do
  let codec ← set.codec name
  let (records, broken) := split set.limits.maxLength (.ofSlice slice)
  let message ← records.foldlM (applyRecord set nested codec) (.new codec.message)
  match broken with
  | none => return message
  | some broken => throw (breakError set codec broken)

/-- Read a message of a type that may go on nesting for some levels, itself included. -/
def decodeWithin (set : CodecSet) : Nat → String → Slice → Except CodecError Message
  | 0, _, slice =>
    .error (.malformed
      (.limitExceeded slice.offset .nestingDepth set.limits.maxDepth (set.limits.maxDepth + 1)))
  | levels + 1, name, slice => decodeOver set (decodeWithin set levels) name slice

/-- Read a whole message of a type. -/
def decode (set : CodecSet) (name : String) (bytes : List UInt8) : Except CodecError Message :=
  if set.limits.maxMessageSize < bytes.length then
    .error (.malformed
      (.limitExceeded 0 .messageSize set.limits.maxMessageSize bytes.length))
  else decodeWithin set (set.limits.maxDepth + 1) name ⟨0, bytes⟩

end Protobuf.CodecSet
