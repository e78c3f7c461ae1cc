import Protobuf.Codec.Error
import Protobuf.Codec.Plan

/-! # Codecs of a schema

The codecs of every message of a schema, the entry messages of its maps included, with the limits
that reading keeps to. -/

namespace Protobuf

/-- The limits of reading. -/
structure Limits where
  /-- The most bytes a whole message may take: 64 MiB unless set otherwise. -/
  maxMessageSize : Nat := 67108864
  /-- The most bytes a payload may take: 64 MiB unless set otherwise. -/
  maxLength : Nat := 67108864
  /-- How deep messages may nest. -/
  maxDepth : Nat := 100
deriving DecidableEq, Repr

/-- Codecs by the name of the message, with limits. -/
structure CodecSet where
  codecs : Table String MessageCodec := .empty
  limits : Limits := {}

namespace CodecSet

/-- The codecs with one more. A codec of the same name is replaced. -/
def insert (set : CodecSet) (codec : MessageCodec) : CodecSet :=
  { set with codecs := set.codecs.insert codec.message codec }

/-- The codecs with those of a message and its entry messages. -/
def addMessage (registry : Registry) (set : CodecSet) (type : MessageType) : CodecSet :=
  (type :: type.entryMessages).foldl (fun set type => set.insert (.ofType registry type)) set

/-- The codecs of every message of a registry. -/
def ofRegistry (registry : Registry) : CodecSet :=
  registry.messages.values.foldl (addMessage registry) {}

/-- The codecs of a schema. -/
def ofSchema (schema : Schema) : CodecSet :=
  ofRegistry (.ofSchema schema)

/-- The codecs of a message and the types nested in it. -/
def ofMessage (type : MessageType) : CodecSet :=
  ofRegistry (.ofMessage type)

/-- The codec of a message, if there is one. -/
def get? (set : CodecSet) (name : String) : Option MessageCodec :=
  set.codecs.get? name

/-- The codec of a message. -/
def codec (set : CodecSet) (name : String) : Except CodecError MessageCodec :=
  match set.get? name with
  | some codec => .ok codec
  | none => .error (.unknownMessage name)

end CodecSet

end Protobuf
