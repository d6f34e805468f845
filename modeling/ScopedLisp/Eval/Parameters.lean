import ScopedLisp.Eval.Calls

/-!
# Parameter lists

The parameters of a procedure are a list of symbols, a list of symbols that ends in one more
symbol, or a single symbol. The symbol at the end takes the arguments that are left over.
-/

namespace ScopedLisp

/-- The number of parameters before the end of the list at `params`, and whether a symbol at the
end takes further arguments. -/
def Heap.parameterShape (heap : Heap) (params : Handle) : Except Failure (Nat × Bool) := do
  let (cars, _, last) ← heap.spine (heap.size + 1) params
  return (cars.length, last matches .symbol _)

namespace Store

/-- Refuses a repeated parameter. -/
def requireNew (store : Store) (form : String) (seen : List Handle) (symbol : Handle) :
    Except Failure Unit := do
  if seen.contains symbol then
    throw (.unsupportedForm form (.duplicateParameter (← store.symbols.name symbol)))

/-- Checks the parameters from `params` on, of which there are no more than `steps`, against
those seen before. -/
def checkParametersFrom (store : Store) (form : String) :
    Nat → List Handle → Handle → Except Failure Unit
  | 0, _, _ => .error .endlessWalk
  | steps + 1, seen, params => do
    match ← store.heap.get params with
    | .nil => return ()
    | .symbol symbol => store.requireNew form seen symbol
    | .pair car cdr =>
      match ← store.heap.get car with
      | .symbol symbol =>
        store.requireNew form seen symbol
        checkParametersFrom store form steps (symbol :: seen) cdr
      | _ => throw (.typeMismatch "symbol" (← store.describe car))
    | _ => throw (.typeMismatch "parameter list" (← store.describe params))

/-- Accepts a parameter list whose symbols are all different. -/
def checkParameters (store : Store) (form : String) (params : Handle) : Except Failure Unit :=
  store.checkParametersFrom form (store.heap.size + 1) [] params

end Store

namespace Calls

open Routine

/-- Binds the parameters at `params`, no more than `steps` of them, to the arguments at `args`.
A symbol at the end is bound to the list of arguments that is left, which is shared. -/
def bindFrom (calls : Calls) : Nat → Handle → Handle → Routine Unit
  | 0, _, _ => throw .endlessWalk
  | steps + 1, params, args => do
    match ← fetch params with
    | .pair car cdr =>
      match ← fetch car with
      | .symbol symbol =>
        match ← fetch args with
        | .pair argument rest =>
          calls.bindSymbol symbol argument
          bindFrom calls steps cdr rest
        | _ => throw (.notAPair args)
      | _ => throw (.typeMismatch "symbol" (← calls.describe car))
    | .symbol symbol => calls.bindSymbol symbol args
    | .nil => return ()
    | _ => throw (.typeMismatch "parameter list" (← calls.describe params))

/-- Binds parameters to arguments in the current scope, if their numbers agree. -/
def bindParameters (calls : Calls) (params args : Handle) : Routine Unit := do
  calls.reach .binding
  let (required, variadic) ← inspect fun store _ => store.heap.parameterShape params
  let supplied := (← elements args).length
  if supplied < required ∨ (required < supplied ∧ ¬variadic) then
    throw (.arityMismatch "" required variadic supplied)
  else calls.bindFrom ((← heapSize) + 1) params args

end Calls

end ScopedLisp
