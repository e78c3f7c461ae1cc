/-! # Varints

Whole numbers below `2 ^ 64` in base 128, the low digits first. Every byte but the last has its
high bit set. Writing uses the fewest bytes; reading takes up to ten, so a number may also be
padded with zero digits. -/

namespace Protobuf.Wire.Varint

/-- The most bytes a varint takes. -/
def maxBytes : Nat := 10

/-- The shortest form of a number. -/
def encode (n : Nat) : List UInt8 :=
  if n < 128 then [n.toUInt8] else (n % 128 + 128).toUInt8 :: encode (n / 128)
termination_by n
decreasing_by omega

/-- The length of the shortest form, from the number of bits of the number. -/
def size (n : Nat) : Nat :=
  ((n ||| 1).log2 + 1 + 6) / 7

/-- Read a number of at most `room` digits; the number and how many bytes it took. When only one
digit is left, no more than one bit is left of the 64. -/
def decodeWithin : Nat → List UInt8 → Option (Nat × Nat)
  | 0, _ => none
  | _ + 1, [] => none
  | room + 1, b :: rest =>
    if room = 0 ∧ 1 < b.toNat then none
    else if b.toNat < 128 then some (b.toNat, 1)
    else
      match decodeWithin room rest with
      | some (high, used) => some (b.toNat - 128 + 128 * high, used + 1)
      | none => none

/-- Read a number off the start of a byte string; the number and how many bytes it took. -/
def decode (bytes : List UInt8) : Option (Nat × Nat) :=
  decodeWithin maxBytes bytes

end Protobuf.Wire.Varint
