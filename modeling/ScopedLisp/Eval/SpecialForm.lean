import ScopedLisp.Eval.Procedure

/-!
# Special forms

The six forms that receive their operands unevaluated. Each takes the operands as one list and
decides which of them to evaluate. A list of operands that does not end properly is refused
before anything is evaluated.
-/

namespace ScopedLisp

open Routine

namespace Calls

/-- Evaluates expressions in order and returns the last value, or `result` if there are none. -/
def evaluateLast (calls : Calls) : Handle → List Handle → Routine Handle
  | result, [] => pure result
  | _, expr :: rest => do
    let value ← calls.evaluate expr
    evaluateLast calls value rest

end Calls

namespace SpecialForm

/-- A wrong number of operands. -/
def miscounted {α : Type} (form : SpecialForm) (expected : Int) (actual : Nat) : Routine α :=
  throw (.arityMismatch form.word expected false actual)

/-- The form `(quote datum)` has the datum itself for its value. -/
def runQuotation (rest : Handle) : Routine Handle := do
  match ← elements rest with
  | [datum] => return datum
  | operands => quotation.miscounted 1 operands.length

/-- Evaluates one of two branches: the second if the test gives false, the first otherwise. -/
def branch (calls : Calls) (test consequent : Handle) (alternative : Option Handle) :
    Routine Handle := do
  let value ← calls.evaluate test
  calls.reach .choosing
  let verdict ← fetch value
  if verdict ≠ .boolean false then calls.evaluate consequent
  else
    match alternative with
    | some expr => calls.evaluate expr
    | none => nil

/-- The forms `(if test consequent)` and `(if test consequent alternative)`. -/
def runConditional (calls : Calls) (rest : Handle) : Routine Handle := do
  match ← elements rest with
  | [test, consequent] => branch calls test consequent none
  | [test, consequent, alternative] => branch calls test consequent (some alternative)
  | operands => conditional.miscounted (if operands.length < 2 then 2 else 3) operands.length

/-- The form `(set! name expr)` changes the nearest binding of the name and returns the new
value. -/
def runAssignment (calls : Calls) (rest : Handle) : Routine Handle := do
  match ← elements rest with
  | [target, expr] =>
    match ← fetch target with
    | .symbol symbol =>
      let value ← calls.evaluate expr
      calls.assignSymbol symbol value
      return value
    | _ => throw (.typeMismatch "symbol" (← calls.describe target))
  | operands => assignment.miscounted 2 operands.length

/-- The shorthand `(define (name . params) body ...)`, of which `rest` holds all but the first
word. -/
def defineProcedure (calls : Calls) (rest name params : Handle) : Routine Handle := do
  match ← fetch name with
  | .symbol symbol =>
    match ← fetch rest with
    | .pair _ body =>
      let value ← calls.makeProcedure definition.word params body
      calls.bindSymbol symbol value
      return name
    | _ => throw (.notAPair rest)
  | _ => throw (.typeMismatch "symbol" (← calls.describe name))

/-- The form `(define name expr)` binds the name in the current scope and returns it, and so does
the shorthand for procedures. -/
def runDefinition (calls : Calls) (rest : Handle) : Routine Handle := do
  let operands ← elements rest
  match operands with
  | [] => definition.miscounted 2 0
  | target :: others =>
    match ← fetch target with
    | .pair name params => defineProcedure calls rest name params
    | .symbol symbol =>
      match others with
      | [expr] =>
        let value ← calls.evaluate expr
        calls.bindSymbol symbol value
        return target
      | _ => definition.miscounted 2 operands.length
    | _ => throw (.typeMismatch "symbol" (← calls.describe target))

/-- The form `(lambda params body ...)` makes a procedure. -/
def runAbstraction (calls : Calls) (rest : Handle) : Routine Handle := do
  match ← fetch rest with
  | .pair params body => calls.makeProcedure abstraction.word params body
  | _ => throw (.arityMismatch abstraction.word 1 true 0)

/-- The form `(begin expr ...)` evaluates all and returns the last value. -/
def runSequence (calls : Calls) (rest : Handle) : Routine Handle := do
  let operands ← elements rest
  calls.evaluateLast (← nil) operands

/-- Runs the form on its operands. -/
def run (form : SpecialForm) (calls : Calls) (rest : Handle) : Routine Handle := do
  calls.reach .dispatching
  match form with
  | .quotation => runQuotation rest
  | .conditional => runConditional calls rest
  | .assignment => runAssignment calls rest
  | .definition => runDefinition calls rest
  | .abstraction => runAbstraction calls rest
  | .sequence => runSequence calls rest

end SpecialForm

end ScopedLisp
