/-! # Powers of two and of ten

The scales of binary and of decimal numbers. -/

namespace Protobuf.Number

/-- A power of two. -/
def twoTo (exponent : Nat) : Nat := Nat.pow 2 exponent

/-- A power of ten. -/
def tenTo (exponent : Nat) : Nat := Nat.pow 10 exponent

end Protobuf.Number
