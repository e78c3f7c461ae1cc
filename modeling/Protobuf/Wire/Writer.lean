import Protobuf.Text.Utf8
import Protobuf.Wire.Record

/-! # Writing values

The bytes of each kind of value that the wire knows. -/

namespace Protobuf.Wire.Write

/-- A number as so many bytes, the low byte first. -/
def littleEndian : Nat → Nat → List UInt8
  | 0, _ => []
  | count + 1, n => (n % 256).toUInt8 :: littleEndian count (n / 256)

/-- Four bytes, the low byte first. -/
def fixed32 (n : Nat) : List UInt8 := littleEndian 4 n

/-- Eight bytes, the low byte first. -/
def fixed64 (n : Nat) : List UInt8 := littleEndian 8 n

/-- A number with a layout. -/
def word : Word → Nat → List UInt8
  | .varint, n => Varint.encode n
  | .fixed64, n => fixed64 n
  | .fixed32, n => fixed32 n

/-- The two's complement of a signed number in 64 bits. -/
def twosComplement (n : Int) : Nat :=
  (n % UInt64.size).toNat

/-- A signed number as a varint. A negative number takes ten bytes, whatever its width. -/
def signed (n : Int) : List UInt8 := Varint.encode (twosComplement n)

/-- A signed number as a zigzag varint. -/
def zigzag (n : Int) : List UInt8 := Varint.encode (Zigzag.encode n)

/-- A truth value. -/
def bool (value : Bool) : List UInt8 := [if value then 1 else 0]

/-- A varint length and that many bytes. -/
def payload (bytes : List UInt8) : List UInt8 := Varint.encode bytes.length ++ bytes

/-- A text as the payload of its UTF-8 form. -/
def text (value : String) : List UInt8 := payload (Text.Utf8.encode value)

/-- A record key. -/
def key (key : Key) : List UInt8 := Varint.encode key.value

end Protobuf.Wire.Write
