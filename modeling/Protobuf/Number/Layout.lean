import Protobuf.Number.Shortest

/-! # Numbers as text

How a decimal is laid out: with a point among its digits when the power of ten of its leading
digit lies between two bounds, with an exponent otherwise. -/

namespace Protobuf.Number

/-- The decisions of one way to write numbers. -/
structure Layout where
  /-- The least power of ten of a leading digit that is written with a point. -/
  lowest : Int
  /-- The greatest power of ten of a leading digit that is written with a point. -/
  highest : Int
  /-- What stands in front of an exponent that is not negative. -/
  plus : String
  /-- Which of two equally near shortest decimals is taken. -/
  tie : Tie
  /-- The text of what is not a number. -/
  nan : String
  /-- The text of infinity, behind a sign. -/
  infinity : String
  /-- Whether infinity shows its sign. -/
  signedInfinity : Bool

namespace Layout

/-- In JSON, numbers of 64 bits have a point from `0.00001` to below `10 ^ 16`, exponents show
their sign, ties go to the even digit, and what is not finite is null. -/
def json64 : Layout := ⟨-5, 15, "+", .even, "null", "null", false⟩

/-- In JSON, numbers of 32 bits have a point from `0.000001` to below `10 ^ 13`. -/
def json32 : Layout := { json64 with lowest := -6, highest := 12 }

/-- In source text, numbers have a point from `0.0001` to below `10 ^ 16`, and ties go up. -/
def source : Layout := ⟨-4, 15, "", .up, "NaN", "inf", true⟩

/-- The text of a positive decimal. -/
def decimal (layout : Layout) (x : Decimal) : String :=
  let digits := Nat.toDigits 10 x.digits
  let leading : Int := digits.length + x.power - 1
  if layout.lowest ≤ leading && leading ≤ layout.highest then
    if 0 ≤ x.power then
      String.ofList (digits ++ List.replicate x.power.toNat '0' ++ ['.', '0'])
    else if 0 ≤ leading then
      let whole := leading.toNat + 1
      String.ofList (digits.take whole ++ '.' :: digits.drop whole)
    else
      String.ofList ('0' :: '.' :: (List.replicate (leading.natAbs - 1) '0' ++ digits))
  else
    let mantissa :=
      match digits with
      | d :: e :: rest => d :: '.' :: e :: rest
      | _ => digits
    let exponent := if leading < 0 then toString leading else layout.plus ++ toString leading
    String.ofList mantissa ++ "e" ++ exponent

/-- The text of what the bits of a format stand for. -/
def text (layout : Layout) (format : Format) : Reading → String
  | .nan => layout.nan
  | .infinite negative =>
    (if negative && layout.signedInfinity then "-" else "") ++ layout.infinity
  | .finite negative digits scale =>
    (if negative then "-" else "") ++
      if digits = 0 then "0.0"
      else layout.decimal (format.shortest layout.tie digits scale)

/-- The text of a number of 32 bits. -/
def text32 (layout : Layout) (x : Binary32) : String :=
  layout.text .binary32 x.read

/-- The text of a number of 64 bits. -/
def text64 (layout : Layout) (x : Binary64) : String :=
  layout.text .binary64 x.read

end Layout

end Protobuf.Number
