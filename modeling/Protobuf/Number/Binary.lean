import Protobuf.Number.Power

/-! # Binary floating-point numbers

Numbers of the IEEE 754 interchange formats, kept as their bits. A finite number is a whole number
of digits times a power of two, and arithmetic on it is exact until one final rounding, to the
nearest number of the format and to the even one of two that are equally near. -/

namespace Protobuf.Number

/-- An interchange format: how many bits its fraction and its exponent have. -/
structure Format where
  fraction : Nat
  exponent : Nat

namespace Format

/-- The format of 32 bits. -/
def binary32 : Format := ⟨23, 8⟩

/-- The format of 64 bits. -/
def binary64 : Format := ⟨52, 11⟩

/-- The power of two of the last digit of the smallest numbers. -/
def lowest (format : Format) : Int :=
  2 - twoTo (format.exponent - 1) - format.fraction

/-- The bits of positive infinity. -/
def infinity (format : Format) : Nat :=
  (twoTo format.exponent - 1) * twoTo format.fraction

/-- The sign bit, set for a negative number. -/
def sign (format : Format) (negative : Bool) : Nat :=
  if negative then twoTo (format.fraction + format.exponent) else 0

end Format

/-- What the bits of a format stand for. A finite number is `digits * 2 ^ scale`. -/
inductive Reading
  | nan
  | infinite (negative : Bool)
  | finite (negative : Bool) (digits : Nat) (scale : Int)
deriving DecidableEq, Repr

/-- Read the bits of a format. -/
def Format.read (format : Format) (bits : Nat) : Reading :=
  let fraction := bits % twoTo format.fraction
  let exponent := bits / twoTo format.fraction % twoTo format.exponent
  let negative := bits / twoTo (format.fraction + format.exponent) % 2 == 1
  if exponent = twoTo format.exponent - 1 then
    if fraction = 0 then .infinite negative else .nan
  else if exponent = 0 then .finite negative fraction format.lowest
  else .finite negative (twoTo format.fraction + fraction) (format.lowest + exponent - 1)

/-- The quotient rounded to the nearest whole number, a half to the even one. -/
def roundQuotient (num den : Nat) : Nat :=
  let quotient := num / den
  let double := 2 * (num % den)
  if den < double || (double == den && quotient % 2 == 1) then quotient + 1 else quotient

/-- The power of two of the leading digit of a positive quotient. -/
def leadingPower (num den : Nat) : Int :=
  let guess : Int := (num.log2 : Int) - den.log2
  let reaches :=
    if guess < 0 then den ≤ num * twoTo guess.natAbs else den * twoTo guess.natAbs ≤ num
  if reaches then guess else guess - 1

/-- The bits of the number nearest to a quotient, infinity when it is out of range. -/
def Format.round (format : Format) (negative : Bool) (num den : Nat) : Nat :=
  if num = 0 then format.sign negative
  else
    let scale := max format.lowest (leadingPower num den - format.fraction)
    let digits :=
      if scale < 0 then roundQuotient (num * twoTo scale.natAbs) den
      else roundQuotient num (den * twoTo scale.natAbs)
    let bits := (scale - format.lowest).toNat * twoTo format.fraction + digits
    format.sign negative + min bits format.infinity

/-- A number of the format of 32 bits. -/
structure Binary32 where
  bits : UInt32
deriving DecidableEq, Repr

/-- A number of the format of 64 bits. -/
structure Binary64 where
  bits : UInt64
deriving DecidableEq, Repr

/-- Whether two readings are equal as numbers: zeros are, whatever their sign; what is not a
number equals nothing. -/
def Reading.same : Reading → Reading → Bool
  | .nan, _ => false
  | .finite _ 0 _, .finite _ 0 _ => true
  | left, right => left == right

namespace Binary32

/-- What the number's bits stand for. -/
def read (x : Binary32) : Reading :=
  Format.binary32.read x.bits.toNat

/-- Equality of numbers. -/
def same (x y : Binary32) : Bool :=
  x.read.same y.read

/-- The same number in 64 bits. What is not a number keeps its sign and payload. -/
def widen (x : Binary32) : Binary64 :=
  match x.read with
  | .nan =>
    let bits := x.bits.toNat
    let payload := bits % twoTo 22 * twoTo 29
    ⟨(bits / twoTo 31 * twoTo 63 + Format.binary64.infinity + twoTo 51 + payload).toUInt64⟩
  | .infinite negative => ⟨(Format.binary64.sign negative + Format.binary64.infinity).toUInt64⟩
  | .finite negative digits scale =>
    ⟨(if scale < 0 then Format.binary64.round negative digits (twoTo scale.natAbs)
      else Format.binary64.round negative (digits * twoTo scale.natAbs) 1).toUInt64⟩

/-- The number nearest to a whole number. -/
def ofInt (n : Int) : Binary32 :=
  ⟨(Format.binary32.round (n < 0) n.natAbs 1).toUInt32⟩

/-- Zero, without a sign. -/
def zero : Binary32 := ⟨0⟩

end Binary32

namespace Binary64

/-- What the number's bits stand for. -/
def read (x : Binary64) : Reading :=
  Format.binary64.read x.bits.toNat

/-- Equality of numbers. -/
def same (x y : Binary64) : Bool :=
  x.read.same y.read

/-- The number nearest to a signed quotient. -/
def ofQuotient (negative : Bool) (num den : Nat) : Binary64 :=
  ⟨(Format.binary64.round negative num den).toUInt64⟩

/-- The number nearest to a whole number. -/
def ofInt (n : Int) : Binary64 :=
  ofQuotient (n < 0) n.natAbs 1

/-- The nearest number in 32 bits. What is not a number keeps its sign and the head of its
payload. -/
def narrow (x : Binary64) : Binary32 :=
  match x.read with
  | .nan =>
    let bits := x.bits.toNat
    let payload := bits % twoTo 51 / twoTo 29
    ⟨(bits / twoTo 63 * twoTo 31 + Format.binary32.infinity + twoTo 22 + payload).toUInt32⟩
  | .infinite negative => ⟨(Format.binary32.sign negative + Format.binary32.infinity).toUInt32⟩
  | .finite negative digits scale =>
    ⟨(if scale < 0 then Format.binary32.round negative digits (twoTo scale.natAbs)
      else Format.binary32.round negative (digits * twoTo scale.natAbs) 1).toUInt32⟩

/-- Zero, without a sign. -/
def zero : Binary64 := ⟨0⟩

/-- The product of two magnitudes, rounded. -/
def times (x y : Binary64) : Binary64 :=
  match x.read, y.read with
  | .finite _ m p, .finite _ n q =>
    let scale := p + q
    if scale < 0 then ofQuotient false (m * n) (twoTo scale.natAbs)
    else ofQuotient false (m * n * twoTo scale.natAbs) 1
  | _, _ => ⟨Format.binary64.infinity.toUInt64⟩

/-- The quotient of two magnitudes, rounded. -/
def dividedBy (x y : Binary64) : Binary64 :=
  match x.read, y.read with
  | .finite _ m p, .finite _ n q =>
    let scale := p - q
    if scale < 0 then ofQuotient false m (n * twoTo scale.natAbs)
    else ofQuotient false (m * twoTo scale.natAbs) n
  | _, _ => ⟨Format.binary64.infinity.toUInt64⟩

/-- Whether the number is beyond every finite one. -/
def isInfinite (x : Binary64) : Bool :=
  match x.read with
  | .infinite _ => true
  | _ => false

/-- The number with its sign bit set, if asked for. -/
def withSign (negative : Bool) (x : Binary64) : Binary64 :=
  if negative then ⟨x.bits ||| 0x8000000000000000⟩ else x

end Binary64

end Protobuf.Number
