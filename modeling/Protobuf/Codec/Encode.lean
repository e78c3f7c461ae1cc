import Protobuf.Codec.Set

/-! # Writing messages

The bytes of a message: its fields in declared order, then the records it does not know.

## Implementation notes

Fields are written in the order of the codec, but recursion goes over the value. So every field of
a message is first turned into a `Draft`, which waits for the plan of the field; the codec then
takes the drafts in its own order. -/

namespace Protobuf

open Wire

/-- The bytes of a row of optional parts; none if a part is missing. -/
def writeEach {α : Type} (write : α → Option (List UInt8)) : List α → Option (List UInt8)
  | [] => some []
  | item :: rest =>
    match write item, writeEach write rest with
    | some here, some after => some (here ++ after)
    | _, _ => none

/-- A value that waits for the plan of its field. -/
structure Draft where
  /-- Whether the value is zero. -/
  zero : Bool
  /-- The records of the value as a field of a message. -/
  write : String → FieldPlan → Except CodecError (List UInt8)

namespace CodecSet

/-- The error of a field of a message that holds something other than was expected. -/
def mismatch (message : String) (plan : FieldPlan) (expected : String) :
    Except CodecError (List UInt8) :=
  .error (.valueMismatch message plan.field expected)

/-- The records of fields, given the drafts of those that are set and the groups of which a member
was written. -/
def writeFields (message : String) (draft? : Nat → Option Draft) (groups : List String) :
    List FieldPlan → Except CodecError (List UInt8)
  | [] => .ok []
  | plan :: rest =>
    match draft? plan.tag with
    | none => writeFields message draft? groups rest
    | some draft =>
      match plan.presence with
      | .implicit =>
        if draft.zero then writeFields message draft? groups rest
        else do
          let here ← draft.write message plan
          let after ← writeFields message draft? groups rest
          return here ++ after
      | .oneof group =>
        if groups.contains group then .error (.oneofConflict message group)
        else do
          let here ← draft.write message plan
          let after ← writeFields message draft? (group :: groups) rest
          return here ++ after
      | _ => do
        let here ← draft.write message plan
        let after ← writeFields message draft? groups rest
        return here ++ after

/-- The bytes of a message whose fields are drafts. -/
def writeMessage (set : CodecSet) (typeName : String) (drafts : List (Nat × Draft))
    (unknown : List UnknownField) : Except CodecError (List UInt8) := do
  let codec ← set.codec typeName
  match drafts.find? fun (tag, _) => (codec.reader? tag).isNone with
  | some (tag, _) => throw (.unknownField codec.message tag)
  | none =>
    let known ← writeFields codec.message (Keyed.get? · drafts) [] codec.fields
    return known ++ UnknownField.rawAll unknown

/-- The records of the entries of a map. -/
def writeEntries (codec : MessageCodec) (plan : FieldPlan) :
    List (Draft × Draft) → Except CodecError (List UInt8)
  | [] => .ok []
  | (key, value) :: rest => do
    let half (tag : Nat) : Option Draft :=
      if tag = 1 then some key else if tag = 2 then some value else none
    let entry ← writeFields codec.message half [] codec.fields
    let after ← writeEntries codec plan rest
    return plan.key ++ Write.payload entry ++ after

mutual

/-- The records of a value as a field of a message. -/
def writeValue (set : CodecSet) : Value → String → FieldPlan → Except CodecError (List UInt8)
  | .message ⟨typeName, fields, unknown⟩, message, plan =>
    match plan.form with
    | .message type =>
      if typeName = type then do
        let nested ← writeMessage set typeName (drafts set fields) unknown
        return plan.key ++ Write.payload nested
      else mismatch message plan type
    | form => mismatch message plan form.describe
  | .list elements, message, plan =>
    match plan.form with
    | .repeated scalar =>
      match writeEach (fun element => (scalar.write? element).map (plan.key ++ ·)) elements with
      | some records => .ok records
      | none => mismatch message plan scalar.name
    | .packed kind =>
      match writeEach kind.write? elements with
      | some run => .ok (if elements.isEmpty then [] else plan.key ++ Write.payload run)
      | none => mismatch message plan kind.name
    | .messages type => writeElements set elements message plan type
    | form => mismatch message plan form.describe
  | .map entries, message, plan =>
    match plan.form with
    | .map entry => do
      let codec ← set.codec entry
      writeEntries codec plan (entryDrafts set entries)
    | form => mismatch message plan form.describe
  | value, message, plan =>
    match plan.form with
    | .single scalar =>
      match scalar.write? value with
      | some bytes => .ok (plan.key ++ bytes)
      | none => mismatch message plan scalar.name
    | form => mismatch message plan form.describe

/-- The records of the elements of a field that holds messages of a type. -/
def writeElements (set : CodecSet) : List Value → String → FieldPlan → String →
    Except CodecError (List UInt8)
  | [], _, _, _ => .ok []
  | .message ⟨typeName, fields, unknown⟩ :: rest, message, plan, type =>
    if typeName = type then do
      let nested ← writeMessage set typeName (drafts set fields) unknown
      let after ← writeElements set rest message plan type
      return plan.key ++ Write.payload nested ++ after
    else mismatch message plan type
  | _ :: _, message, plan, type => mismatch message plan type

/-- The drafts of fields. -/
def drafts (set : CodecSet) : List (Nat × Value) → List (Nat × Draft)
  | [] => []
  | (tag, value) :: rest => (tag, ⟨value.isZero, writeValue set value⟩) :: drafts set rest

/-- The drafts of entries. -/
def entryDrafts (set : CodecSet) : List (Value × Value) → List (Draft × Draft)
  | [] => []
  | (key, value) :: rest =>
    (⟨key.isZero, writeValue set key⟩, ⟨value.isZero, writeValue set value⟩) ::
      entryDrafts set rest

end

/-- The bytes of a message. -/
def encode (set : CodecSet) (message : Message) : Except CodecError (List UInt8) :=
  writeMessage set message.typeName (drafts set message.fields) message.unknown

end CodecSet

end Protobuf
