/-! # Bounds of whole numbers

The whole numbers that fit in a number of bits, with a sign or without. -/

namespace Protobuf.Number

/-- The least and the greatest of some whole numbers. -/
structure Bounds where
  low : Int
  high : Int
deriving DecidableEq, Repr

namespace Bounds

/-- The signed numbers of 32 bits. -/
def signed32 : Bounds := ⟨-2147483648, 2147483647⟩

/-- The signed numbers of 64 bits. -/
def signed64 : Bounds := ⟨-9223372036854775808, 9223372036854775807⟩

/-- The unsigned numbers of 32 bits. -/
def unsigned32 : Bounds := ⟨0, 4294967295⟩

/-- The unsigned numbers of 64 bits. -/
def unsigned64 : Bounds := ⟨0, 18446744073709551615⟩

/-- Whether a number lies between the bounds. -/
def holds (bounds : Bounds) (n : Int) : Bool :=
  bounds.low ≤ n && n ≤ bounds.high

end Bounds

end Protobuf.Number
