import Protobuf.Codec.Set
import Protobuf.Json.Document
import Protobuf.Json.Reader

/-! # Configuration

The limits of reading as they are configured in JSON. What is left out keeps its usual value, and
other members are skipped. -/

namespace Protobuf

/-- The configuration of codecs. -/
structure Config where
  limits : Limits := {}
deriving DecidableEq, Repr

namespace Config

open Json

/-- A slot for a limit. -/
def limit (name : String) (store : Nat → Limits → Limits) : Slot Limits :=
  Slot.of name (fun _ => Int.toNat <$> Reader.integer .unsigned64 "usize") store

/-- How limits are written. -/
def limitsShape : Shape Limits where
  name := "DecodeLimits"
  blank := {}
  slots := [
    limit "max_message_size" fun size limits => { limits with maxMessageSize := size },
    limit "max_length" fun length limits => { limits with maxLength := length },
    limit "max_depth" fun depth limits => { limits with maxDepth := depth }]
  closed := false

/-- How a configuration is written. -/
def shape : Shape Config where
  name := "CodecConfig"
  blank := {}
  slots := [Slot.of "limits" limitsShape.read fun limits _ => ⟨limits⟩]
  closed := false

/-- Read a configuration from JSON. -/
def ofJson (text : String) : Except Fault Config :=
  (shape.read Reader.maxLevels).run text

/-- The JSON form of a configuration. -/
def toJson (config : Config) : Json :=
  .object [("limits", .object [("max_message_size", .nat config.limits.maxMessageSize),
    ("max_length", .nat config.limits.maxLength), ("max_depth", .nat config.limits.maxDepth)])]

end Config

end Protobuf
