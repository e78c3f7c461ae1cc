/-! # Record keys

A record starts with a key, which says whose value follows and how it is laid out: the tag of the
field, and the wire type in the three low bits. -/

namespace Protobuf.Wire

/-- How the value of a record is laid out. -/
inductive WireType
  | varint
  | fixed64
  | lengthDelimited
  | fixed32
deriving DecidableEq, Repr

namespace WireType

/-- The number of the wire type in a key. -/
def id : WireType → Nat
  | .varint => 0
  | .fixed64 => 1
  | .lengthDelimited => 2
  | .fixed32 => 5

/-- The wire type with a number. -/
def ofId? : Nat → Option WireType
  | 0 => some .varint
  | 1 => some .fixed64
  | 2 => some .lengthDelimited
  | 5 => some .fixed32
  | _ => none

/-- The name of the wire type. -/
def name : WireType → String
  | .varint => "VARINT"
  | .fixed64 => "FIXED64"
  | .lengthDelimited => "LENGTH_DELIMITED"
  | .fixed32 => "FIXED32"

/-- Every wire type. -/
def all : List WireType := [.varint, .fixed64, .lengthDelimited, .fixed32]

theorem ofId?_eq_some_iff {n : Nat} {wireType : WireType} :
    ofId? n = some wireType ↔ n = wireType.id := by
  constructor
  · intro found
    unfold ofId? at found
    split at found <;> cases found <;> rfl
  · intro same
    subst same
    cases wireType <;> rfl

end WireType

/-- The greatest tag, `2 ^ 29 - 1`. -/
def maxTag : Nat := 536870911

/-- Whether a tag lies in the range set aside for implementations. -/
def isSetAside (tag : Nat) : Bool :=
  19000 ≤ tag && tag ≤ 19999

/-- Whether a tag can be given to a field. -/
def isValidTag (tag : Nat) : Bool :=
  1 ≤ tag && tag ≤ maxTag && !isSetAside tag

/-- The tag and wire type of a record. -/
structure Key where
  tag : Nat
  wireType : WireType
deriving DecidableEq, Repr

/-- The tag and the number of the wire type in the number written for a key. -/
def splitKey (value : Nat) : Nat × Nat :=
  (value / 8, value % 8)

/-- The number written for a key. It has 32 bits, so the high bits of a tag that is too great are
lost. -/
def Key.value (key : Key) : Nat :=
  (key.tag * 8 + key.wireType.id) % UInt32.size

end Protobuf.Wire
