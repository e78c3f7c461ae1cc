import Protobuf.Number.Binary

/-! # Shortest decimals

The decimal digits that stand for a binary number: the fewest that read back as it, and of those
the nearest to it. They are found by trying the decimal grids from coarse to fine. The reals that
read back form an interval around the number, its ends belonging to it when the number's own
digits are even; if any point of a grid lies inside, one of the number's two neighbours on the
grid does. -/

namespace Protobuf.Number

/-- The number of decimal digits of a positive whole number. -/
def decimalLength (n : Nat) : Nat :=
  (Nat.toDigits 10 n).length

/-- The power of ten of the leading decimal digit of a positive quotient. -/
def leadingTen (num den : Nat) : Int :=
  if den ≤ num then decimalLength (num / den) - 1
  else -(decimalLength ((den + num - 1) / num - 1) : Int)

/-- Which of two equally near decimals is taken. -/
inductive Tie
  | even
  | up
deriving DecidableEq, Repr

/-- Digits and a power of ten: `digits * 10 ^ power`. -/
structure Decimal where
  digits : Nat
  power : Int
deriving DecidableEq, Repr

/-- The same decimal without zeros at the end of its digits; at most `fuel` are taken off. -/
def Decimal.strip (decimal : Decimal) : Nat → Decimal
  | 0 => decimal
  | fuel + 1 =>
    if decimal.digits ≠ 0 && decimal.digits % 10 = 0 then
      strip ⟨decimal.digits / 10, decimal.power + 1⟩ fuel
    else decimal

/-- A positive number, with the ends of the interval that reads back as it, all over one
denominator. -/
structure Span where
  low : Nat
  value : Nat
  high : Nat
  den : Nat
  closed : Bool

/-- The interval of the finite number `digits * 2 ^ scale`. Below the least number with a given
leading power of two, the numbers lie twice as dense. -/
def Format.span (format : Format) (digits : Nat) (scale : Int) : Span :=
  let below := if digits = twoTo format.fraction && format.lowest < scale then 1 else 2
  let factor := if scale < 0 then 1 else twoTo scale.natAbs
  { low := (4 * digits - below) * factor
    value := 4 * digits * factor
    high := (4 * digits + 2) * factor
    den := if scale < 0 then 4 * twoTo scale.natAbs else 4
    closed := digits % 2 == 0 }

/-- The nearer of the neighbours on the grid of a power of ten that read back, if one does. -/
def Span.onGrid (span : Span) (tie : Tie) (power : Int) : Option Decimal :=
  let unitNum := if power < 0 then 1 else tenTo power.natAbs
  let unitDen := if power < 0 then tenTo power.natAbs else 1
  -- a point `n` of the grid stands at `n * unit` where the number stands at `at span.value`
  let unit := unitNum * span.den
  let place (n : Nat) : Nat := n * unitDen
  let down := place span.value / unit
  let inside (n : Nat) : Bool :=
    let x := n * unit
    if span.closed then place span.low ≤ x && x ≤ place span.high
    else place span.low < x && x < place span.high
  let up := down + 1
  let toDown := place span.value - down * unit
  let toUp := up * unit - place span.value
  let chosen : Option Nat :=
    if inside down then
      if inside up then
        if toDown < toUp then some down
        else if toUp < toDown then some up
        else if tie = .up || down % 2 == 1 then some up
        else some down
      else some down
    else if inside up then some up
    else none
  chosen.map (⟨·, power⟩)

/-- The first hit on the grids from one with `count` digits to one with `count + fuel`. -/
def Span.search (span : Span) (tie : Tie) (leading : Int) (count : Nat) : Nat → Option Decimal
  | 0 => none
  | fuel + 1 =>
    match span.onGrid tie (leading + 1 - count) with
    | some decimal => some decimal
    | none => span.search tie leading (count + 1) fuel

/-- The shortest decimal of the positive finite number `digits * 2 ^ scale`. Seventeen digits are
always enough. -/
def Format.shortest (format : Format) (tie : Tie) (digits : Nat) (scale : Int) : Decimal :=
  let span := format.span digits scale
  match span.search tie (leadingTen span.value span.den) 1 17 with
  | some decimal => decimal.strip 17
  | none => ⟨0, 0⟩

end Protobuf.Number
