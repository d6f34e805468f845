import ScopedLisp.Eval.Parameters

/-!
# Procedures

Making a procedure and calling one. A call makes a frame under the scope in which the procedure
was made, binds the parameters there, evaluates the body and leaves the frame again, also when
the body fails.
-/

namespace ScopedLisp.Calls

open Routine

/-- The one expression that stands for the list of forms at `forms`: of several it is their
sequence, of none the empty list. -/
def sequenced (calls : Calls) (form : String) (forms : Handle) : Routine Handle := do
  match ← elements forms with
  | [] => nil
  | [only] => return only
  | _ =>
    match ← inspect fun _ words => .ok (words.classify SpecialForm.sequence.word) with
    | some word =>
      let head ← calls.allocate word
      calls.allocate (.pair head forms)
    | none => throw (.unsupportedForm form .sequenceUnregistered)

/-- Makes a procedure over the current scope for the given form. `forms` is the list of the forms
of its body. -/
def makeProcedure (calls : Calls) (form : String) (params forms : Handle) : Routine Handle := do
  inspect fun store _ => store.checkParameters form params
  let body ← calls.sequenced form forms
  let scope ← currentScope
  calls.allocate (.procedure params body scope)

/-- Calls the procedure with these parameters, body and scope. -/
def applyProcedure (calls : Calls) (params body scope args : Handle) : Routine Handle := do
  calls.within scope do
    calls.bindParameters params args
    calls.evaluate body

/-- Calls whatever is at `target`. -/
def apply (calls : Calls) (target args : Handle) : Routine Handle := do
  match ← fetch target with
  | .procedure params body scope => calls.applyProcedure params body scope args
  | _ => throw (.notCallable (← calls.describe target))

/-- Evaluates the elements of the list at `h` in order, no more than `steps` of them, and returns
their values behind `values`, the latest in front. The end of the list is looked at after the
elements before it have been evaluated. -/
def evaluateEach (calls : Calls) : Nat → Handle → List Handle → Routine (List Handle)
  | 0, _, _ => throw .endlessWalk
  | steps + 1, h, values => do
    calls.reach .walking
    match ← fetch h with
    | .pair car cdr =>
      let value ← calls.evaluate car
      evaluateEach calls steps cdr (value :: values)
    | .nil => return values
    | _ => throw (.improperList h)

/-- How many elements of a list that runs in a circle are evaluated, beyond one for each record of
the heap. The evaluation of an element may well fail in a later round, so there have to be more
rounds than any machine gets through. -/
def furtherRounds : Nat := 1 <<< 60

/-- The list of the values of the elements of the list at `args`. -/
def evaluateArguments (calls : Calls) (args : Handle) : Routine Handle := do
  let values ← calls.evaluateEach ((← heapSize) + 1 + furtherRounds) args []
  calls.allocateList (← nil) values

end ScopedLisp.Calls
