import ScopedLisp.Eval.Operator
import ScopedLisp.Eval.SpecialForm

/-!
# Evaluation

A symbol evaluates to what it is bound to and any other record but a pair to itself. A pair is a
combination, and its first element decides: a reserved word is taken from the vocabulary, a
symbol must be bound to a procedure, and nothing else can be called. Operators and procedures
receive the values of their arguments, from left to right.

There are no tail calls. Each nested evaluation takes one place on the host's stack, and when
none is left the evaluation fails. `Routine.guarded` turns this failure into one of the program
and restores the scopes that were active, of which the failed calls may have left too many.
-/

namespace ScopedLisp

open Routine

namespace Calls

/-- Evaluates the combination of `head` and the operands at `rest`. -/
def combination (calls : Calls) (head rest : Handle) : Routine Handle := do
  match ← fetch head with
  | .keyword name =>
    let form ← inspect fun _ words => words.form name
    form.run calls rest
  | .operator name =>
    let operator ← inspect fun _ words => words.operator name
    let args ← calls.evaluateArguments rest
    operator.run calls args
  | .symbol symbol =>
    let target ← lookupSymbol symbol
    match ← fetch target with
    | .procedure params body scope =>
      let args ← calls.evaluateArguments rest
      calls.applyProcedure params body scope args
    | _ =>
      let name ← symbolName symbol
      throw (.notCallable (name ++ " is bound to " ++ (← calls.describe target)))
  | _ => throw (.notCallable (← calls.describe head))

/-- Evaluates the expression at a handle, which takes a step. -/
def step (calls : Calls) (expr : Handle) : Routine Handle := do
  calls.reach .evaluating
  calls.tick
  match ← fetch expr with
  | .symbol symbol => lookupSymbol symbol
  | .pair head rest => calls.combination head rest
  | _ => return expr

end Calls

/-- Evaluates the expression at a handle with room for a number of nested evaluations. Where
`room` of them are left, `check room` is made at each moment, and where none is left, `exhausted`
takes the place of an evaluation. -/
def evaluateWith (check : Nat → Moment → Routine Unit) (exhausted : Handle → Routine Handle) :
    Nat → Handle → Routine Handle
  | 0, expr => exhausted expr
  | room + 1, expr => Calls.step ⟨evaluateWith check exhausted room, check room⟩ expr

/-- Evaluates the expression at a handle on a stack of which `room` nested calls are left. -/
def evaluate (stack : EvalStack) (room : Nat) (expr : Handle) : Routine Handle :=
  evaluateWith stack.reach (fun _ => throw .stackExhausted) room expr

/-- The nested calls that can be made with room for `room` more of them. -/
def CallStack.callsWithin (stack : EvalStack) (room : Nat) : Calls :=
  ⟨evaluate stack room, stack.reach room⟩

/-- What the outermost calls have of a stack. -/
def CallStack.calls (stack : EvalStack) : Calls := stack.callsWithin stack.room

/-- Turns exhaustion of the host's stack into a failure of the program, after leaving all scopes
that were entered on the way. -/
def Routine.guarded {α : Type} (body : Routine α) : Routine α := fun session =>
  match body session with
  | .error .stackExhausted after =>
    match after.scopes.unwind session.scopes.depth with
    | .ok scopes => .error .recursionDepthExceeded { after with scopes }
    | .error failure => .error failure after
  | outcome => outcome

end ScopedLisp
