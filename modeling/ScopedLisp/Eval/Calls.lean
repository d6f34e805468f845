import ScopedLisp.CallStack
import ScopedLisp.Session

/-!
# Nested calls of the evaluator

Forms, operators and procedure calls do not know the evaluator that runs them. They are given
the two things they need of it: a way to evaluate an expression one call deeper, and a check that
the host's stack is not used up at the present moment. A check stands before each change of the
session and behind it, so the stack may be found used up in every state that an evaluation passes
through.
-/

namespace ScopedLisp

/-- The moments of an evaluation at which the host's stack may be found used up. -/
inductive Moment where
  /-- Before an evaluation is counted as a step, and when it has just been counted. -/
  | evaluating | counted
  | dispatching | choosing | walking | allocating | binding | describing
  /-- Before the frame of a procedure call is made and before it is entered, and when it has just
  been entered. -/
  | entering | entered
  /-- Before the scope of a procedure call is left, and when it has just been left. -/
  | leaving | left
  deriving DecidableEq, Repr

abbrev EvalStack := CallStack Moment Session

structure Calls where
  /-- Evaluates an expression one call deeper. -/
  evaluate : Handle → Routine Handle
  /-- Fails if the stack is used up at this moment. -/
  reach : Moment → Routine Unit

/-- The check that belongs to a stack of which `room` nested calls are left. -/
def CallStack.reach (stack : EvalStack) (room : Nat) (moment : Moment) : Routine Unit := do
  if stack.failsAt moment room (← get) then throw .stackExhausted

/-- The description of an object in a message. -/
def Calls.describe (calls : Calls) (h : Handle) : Routine String := do
  calls.reach .describing
  Routine.describe h

/-- Counts one step of evaluation against the limit. -/
def Calls.tick (calls : Calls) : Routine Unit := do
  Routine.countStep
  calls.reach .counted
  Routine.enforceLimit

/-- Allocates a record. -/
def Calls.allocate (calls : Calls) (record : Record) : Routine Handle := do
  calls.reach .allocating
  Routine.allocate record

/-- Allocates a list in front of `rest`, of which the items are given last item first. -/
def Calls.allocateList (calls : Calls) (rest : Handle) : List Handle → Routine Handle
  | [] => return rest
  | item :: earlier => do
    let longer ← calls.allocate (.pair item rest)
    allocateList calls longer earlier

/-- Binds a symbol in the current scope. -/
def Calls.bindSymbol (calls : Calls) (symbol value : Handle) : Routine Unit := do
  calls.reach .binding
  Routine.bindSymbol symbol value

/-- Changes the nearest binding of a symbol. -/
def Calls.assignSymbol (calls : Calls) (symbol value : Handle) : Routine Unit := do
  calls.reach .binding
  Routine.assignSymbol symbol value

/-- Makes a frame under `parent` and enters it. -/
def Calls.enterScope (calls : Calls) (parent : Handle) : Routine Unit := do
  calls.reach .entering
  let (scope, parent) ← Routine.makeFrame (some parent)
  calls.reach .entering
  Routine.activate scope
  calls.reach .entered
  Routine.reportEntered scope parent

/-- Leaves the current scope. -/
def Calls.exitScope (calls : Calls) : Routine Unit := do
  calls.reach .leaving
  let scope ← Routine.leave
  calls.reach .left
  Routine.reportLeft scope

/-- Runs the body of a procedure call in a new frame under `parent`, which is left again also when
the body fails. -/
def Calls.within {α : Type} (calls : Calls) (parent : Handle) (body : Routine α) : Routine α := do
  calls.enterScope parent
  Routine.report (.procedureApplied (← get).scopes.depth)
  Routine.ensuring body calls.exitScope

end ScopedLisp
