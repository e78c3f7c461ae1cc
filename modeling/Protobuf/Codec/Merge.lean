import Protobuf.Codec.Set

/-! # Merging messages

A message merged into another adds to it what it has: lists are appended, entries of maps replace
those of equal keys, embedded messages are merged, and everything else is replaced. A member of a
group takes the place of the others. -/

namespace Protobuf.CodecSet

mutual

/-- A value merged into what its field holds already. -/
def mergeValue (set : CodecSet) (held : Option Value) : Value → Except CodecError Value
  | .message ⟨typeName, fields, unknown⟩ =>
    match held with
    | some (.message target) => do
      let codec ← set.codec target.typeName
      let merged ← mergeFields set codec target fields
      return .message (merged.addUnknown unknown)
    | _ => .ok (.message ⟨typeName, fields, unknown⟩)
  | .list more =>
    match held with
    | some (.list elements) => .ok (.list (elements ++ more))
    | _ => .ok (.list more)
  | .map more =>
    match held with
    | some (.map entries) =>
      .ok (.map (more.foldl (fun entries (key, value) => Value.setEntry key value entries) entries))
    | _ => .ok (.map more)
  | value => .ok value

/-- Fields merged into a message. -/
def mergeFields (set : CodecSet) (codec : MessageCodec) (target : Message) :
    List (Nat × Value) → Except CodecError Message
  | [] => .ok target
  | (tag, value) :: rest => do
    let cleared :=
      match codec.reader? tag with
      | some plan => codec.clearOthers plan target
      | none => target
    let merged ← mergeValue set (cleared.get? tag) value
    mergeFields set codec (cleared.set tag merged) rest

end

/-- A message merged into another one. -/
def merge (set : CodecSet) (target source : Message) : Except CodecError Message := do
  let codec ← set.codec target.typeName
  let merged ← mergeFields set codec target source.fields
  return merged.addUnknown source.unknown

end Protobuf.CodecSet
