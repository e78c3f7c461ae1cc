/-! # Runs of code points

Properties of characters are given by tables of code points. A range holds every code point
between its ends; a run may step over every other one, as cased letters often do. -/

namespace Protobuf.Text.CodeRange

/-- Whether a code point lies in one of the ranges, both ends included. -/
def mem (ranges : List (Nat × Nat)) (code : Nat) : Bool :=
  ranges.any fun (low, high) => low ≤ code && code ≤ high

/-- Every `step`-th code point from `low` to `high`. -/
structure Run where
  low : Nat
  high : Nat
  step : Nat

/-- Whether a code point is in the run. -/
def Run.mem (run : Run) (code : Nat) : Bool :=
  run.low ≤ code && code ≤ run.high && (code - run.low) % run.step == 0

/-- Whether a code point is in one of the runs. -/
def memRuns (runs : List Run) (code : Nat) : Bool :=
  runs.any (·.mem code)

/-- The code point moved by the distance of its run; itself when no run holds it. -/
def shift (table : List (Run × Int)) (code : Nat) : Nat :=
  match table.find? (·.1.mem code) with
  | some (_, distance) => (code + distance).toNat
  | none => code

end Protobuf.Text.CodeRange
