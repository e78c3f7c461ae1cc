import Protobuf.Json.Fault

/-! # JSON numerals

Numerals are whole numbers while they fit in 64 bits, signed or not, and binary numbers of 64 bits
otherwise. A binary number is read by scaling its leading digits, as many as fit in 64 bits, by a
power of ten, each step rounded to nearest. -/

namespace Protobuf.Json

open Number

/-- The digits of a numeral, taken apart. -/
structure NumeralText where
  whole : List Nat
  fraction : List Nat
  /-- Whether the exponent is negative, and its digits. -/
  exponent : Option (Bool × List Nat)
  /-- Whether there is a point. -/
  pointed : Bool
deriving Repr

/-- A number that was read. -/
inductive Numeral
  | integer (value : Int)
  | double (value : Binary64)
deriving DecidableEq, Repr

/-- The value of a decimal digit. -/
def digit? (c : Char) : Option Nat :=
  if '0' ≤ c && c ≤ '9' then some (c.toNat - '0'.toNat) else none

/-- The digits at the start of a text, and the text behind them. -/
def takeDigits : List Char → List Nat × List Char
  | [] => ([], [])
  | c :: rest =>
    match digit? c with
    | some d => let (digits, after) := takeDigits rest; (d :: digits, after)
    | none => ([], c :: rest)

/-- The fault of a text that goes on like this where a digit was asked for. -/
def noDigit : List Char → Fault
  | [] => .ended
  | _ => .malformed

/-- Take a numeral without its sign off the start of a text. -/
def scanNumeral (text : List Char) : Except Fault (NumeralText × List Char) := do
  let (whole, rest) := takeDigits text
  match whole with
  | [] => throw (noDigit rest)
  | 0 :: _ :: _ => throw .malformed
  | _ => pure ()
  let (pointed, fraction, rest) ←
    match rest with
    | '.' :: rest =>
      let (fraction, after) := takeDigits rest
      if fraction.isEmpty then throw (noDigit after)
      pure (true, fraction, after)
    | _ => pure (false, [], rest)
  let exponentOf (negative : Bool) (rest : List Char) :
      Except Fault (Option (Bool × List Nat) × List Char) :=
    let (digits, after) := takeDigits rest
    if digits.isEmpty then throw (noDigit after) else pure (some (negative, digits), after)
  let (exponent, rest) ←
    match rest with
    | 'e' :: rest | 'E' :: rest =>
      match rest with
      | '+' :: rest => exponentOf false rest
      | '-' :: rest => exponentOf true rest
      | _ => exponentOf false rest
    | _ => pure (none, rest)
  return (⟨whole, fraction, exponent, pointed⟩, rest)

/-- Append digits to a number as long as it stays at or below a bound; the digits left over. -/
def accumulate (bound : Nat) (n : Nat) : List Nat → Nat × List Nat
  | [] => (n, [])
  | d :: rest =>
    if n * 10 + d ≤ bound then accumulate bound (n * 10 + d) rest else (n, d :: rest)

/-- A power of ten from `10 ^ 0` to `10 ^ 308`. -/
def powerOfTen (exponent : Nat) : Binary64 :=
  Binary64.ofQuotient false (tenTo exponent) 1

/-- Scale a magnitude down by a power of ten, no more than `10 ^ 308` at a time. -/
def scaleDown (x : Binary64) (exponent : Nat) : Binary64 :=
  if exponent ≤ 308 then x.dividedBy (powerOfTen exponent)
  else if x = Binary64.zero then x
  else scaleDown (x.dividedBy (powerOfTen 308)) (exponent - 308)
termination_by exponent

/-- Scale a whole number by a power of ten; none when the result is out of range. -/
def scale (digits : Nat) (exponent : Int) : Option Binary64 :=
  let x := Binary64.ofInt digits
  if exponent < 0 then some (scaleDown x exponent.natAbs)
  else if exponent ≤ 308 then
    let y := x.times (powerOfTen exponent.toNat)
    if y.isInfinite then none else some y
  else if digits = 0 then some x
  else none

/-- The number a numeral stands for. -/
def NumeralText.value (numeral : NumeralText) (negative : Bool) : Except Fault Numeral := do
  let (digits, dropped) := accumulate (UInt64.size - 1) 0 numeral.whole
  let asDouble (x : Option Binary64) : Except Fault Numeral :=
    match x with
    | some x => .ok (.double (x.withSign negative))
    | none => .error .malformed
  if !numeral.pointed && numeral.exponent.isNone then
    if !dropped.isEmpty then asDouble (scale digits dropped.length)
    else if !negative then .ok (.integer digits)
    else if digits = 0 || UInt64.size / 2 < digits then asDouble (scale digits 0)
    else .ok (.integer (-(digits : Int)))
  else
    let (digits, unread) := accumulate (UInt64.size - 1) digits numeral.fraction
    let start : Int := dropped.length - (numeral.fraction.length - unread.length : Nat)
    match numeral.exponent with
    | none => asDouble (scale digits start)
    | some (down, places) =>
      match accumulate (UInt32.size / 2 - 1) 0 places with
      | (exponent, []) =>
        asDouble (scale digits (if down then start - exponent else start + exponent))
      | _ => if digits ≠ 0 && !down then .error .malformed else asDouble (some Binary64.zero)

end Protobuf.Json
