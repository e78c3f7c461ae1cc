/-! # Zigzag numbers

Signed numbers laid out as `0, -1, 1, -2, 2, …`, so that numbers near zero are small. Main
statement: both directions undo each other. -/

namespace Protobuf.Wire.Zigzag

/-- The place of a signed number. -/
def encode (n : Int) : Nat :=
  if n < 0 then 2 * n.natAbs - 1 else 2 * n.natAbs

/-- The signed number at a place. -/
def decode (place : Nat) : Int :=
  if place % 2 = 0 then ((place / 2 : Nat) : Int) else -((place / 2 : Nat) : Int) - 1

@[simp] theorem decode_encode (n : Int) : decode (encode n) = n := by
  unfold decode encode
  split <;> split <;> omega

@[simp] theorem encode_decode (place : Nat) : encode (decode place) = place := by
  unfold decode encode
  split <;> split <;> omega

end Protobuf.Wire.Zigzag
