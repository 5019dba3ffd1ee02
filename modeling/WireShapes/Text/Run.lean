/-!
# Runs of code points

A character class is a list of runs `first, first + step, …, last`.  The tables of letters and of
visible characters are written in this form, three numbers a run.
-/

namespace WireShapes.Text

/-- The code points `first, first + step, …` up to `last`. -/
structure Run where
  first : Nat
  last : Nat
  step : Nat
deriving DecidableEq

namespace Run

/-- A run holds the points between its ends that lie a whole number of steps from the first. -/
def holds (r : Run) (n : Nat) : Bool :=
  r.first ≤ n && n ≤ r.last && (n - r.first) % r.step == 0

/-- Reads a table row by row; numbers left over at the end are no row. -/
def table : List Nat → List Run
  | first :: last :: step :: rest => ⟨first, last, step⟩ :: table rest
  | _ => []

/-- Whether some run of the table holds the character. -/
def covers (runs : List Run) (c : Char) : Bool :=
  runs.any fun r => r.holds c.toNat

end Run

end WireShapes.Text
