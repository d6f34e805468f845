import ScopedLisp.Eval.Calls

/-!
# Built-in operators

Sum and difference of exactly two integers. The number of arguments is checked first, then the
arguments from left to right.
-/

namespace ScopedLisp

namespace Routine

/-- The elements of an argument list of exactly `count` arguments. -/
def expectCount (name : String) (count : Int) (args : Handle) : Routine (List Handle) := do
  let items ← elements args
  if items.length ≠ count then throw (.arityMismatch name count false items.length)
  else return items

/-- The value of an integer. -/
def expectInteger (h : Handle) : Routine Int := do
  match ← fetch h with
  | .integer value => return value
  | _ => throw (.typeMismatch "integer" (← describe h))

end Routine

namespace Operator

/-- The number that the operator makes of its arguments. -/
def combine : Operator → List Int → Int
  | .sum, values => values.foldl (· + ·) 0
  | .difference, [] => 0
  | .difference, first :: rest => rest.foldl (· - ·) first

/-- Applies the operator to a list of evaluated arguments. -/
def run (operator : Operator) (calls : Calls) (args : Handle) : Routine Handle := do
  calls.reach .dispatching
  let items ← Routine.expectCount operator.word 2 args
  let values ← items.mapM Routine.expectInteger
  calls.allocate (.integer (operator.combine values))

end Operator

end ScopedLisp
