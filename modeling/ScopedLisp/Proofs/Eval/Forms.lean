import ScopedLisp.Proofs.Eval.Metering

/-!
# Evaluating a special form

An evaluation counts one step and then looks at what stands at the expression. A combination with a
reserved word in front is evaluated by running the form on the operands as they are written, with
one place less on the host's stack.
-/

namespace ScopedLisp

open Routine

namespace Session

/-- The session in which so many more steps are counted. -/
def further (session : Session) (more : Nat) : Session :=
  { session with steps := session.steps + more }

/-- The session in which one more step is counted. -/
def counted (session : Session) : Session := session.further 1

/-- One more step may be counted. -/
def HasStepLeft (session : Session) : Prop :=
  session.stepLimit = 0 ∨ (session.steps : Int) < session.stepLimit

/-- At the expression stands a combination of this form and the operands at `rest`. -/
def IsForm (session : Session) (expr : Handle) (form : SpecialForm) (rest : Handle) : Prop :=
  ∃ head name, session.store.heap.get expr = .ok (.pair head rest) ∧
    session.store.heap.get head = .ok (.keyword name) ∧ session.vocabulary.form name = .ok form

end Session

/-- The host's stack is never found used up. -/
def Calls.Calm (calls : Calls) : Prop :=
  ∀ moment session, calls.reach moment session = .ok () session

theorem calm_withRoom (total room : Nat) :
    ((CallStack.withRoom total : EvalStack).callsWithin room).Calm := fun _ _ => rfl

section Step

variable {session : Session} {total room : Nat}

/-- Counting a step does nothing else where one is left. -/
theorem tick_of_stepLeft {calls : Calls}
    (checks : calls.reach = (CallStack.withRoom total : EvalStack).reach room)
    (budget : session.HasStepLeft) : calls.tick session = .ok () session.counted := by
  have inside : ¬(session.stepLimit ≠ 0 ∧ session.stepLimit < (session.steps + 1 : Nat)) := by
    rcases budget with unlimited | fewer <;> omega
  rw [Metered.tick_eq checks, enforceLimit_eq, if_neg inside]
  rfl

/-- Once the step is counted, anything but a symbol or a pair is its own value. -/
theorem evaluate_of_constant (budget : session.HasStepLeft) {expr : Handle} {record : Record}
    (stored : session.store.heap.get expr = .ok record) (no_symbol : ∀ name, record ≠ .symbol name)
    (no_pair : ∀ car cdr, record ≠ .pair car cdr) :
    evaluate (.withRoom total) (room + 1) expr session = .ok expr session.counted := by
  let calls := (CallStack.withRoom total : EvalStack).callsWithin room
  have passed : calls.reach .evaluating session = .ok () session := calm_withRoom total room _ _
  have ticked : calls.tick session = .ok () session.counted := tick_of_stepLeft rfl budget
  have fetched : fetch expr session.counted = .ok record session.counted := inspect_ok stored
  change calls.step expr session = _
  rw [Calls.step, bind_ok passed, bind_ok ticked, bind_ok fetched]
  cases record with
  | symbol name => exact absurd rfl (no_symbol name)
  | pair car cdr => exact absurd rfl (no_pair car cdr)
  | _ => rfl

/-- Once the step is counted, a pair is taken for a combination. -/
theorem evaluate_of_pair (budget : session.HasStepLeft) {expr head rest : Handle}
    (stored : session.store.heap.get expr = .ok (.pair head rest)) :
    evaluate (.withRoom total) (room + 1) expr session =
      ((CallStack.withRoom total : EvalStack).callsWithin room).combination head rest
        session.counted := by
  let calls := (CallStack.withRoom total : EvalStack).callsWithin room
  have passed : calls.reach .evaluating session = .ok () session := calm_withRoom total room _ _
  have ticked : calls.tick session = .ok () session.counted := tick_of_stepLeft rfl budget
  have fetched : fetch expr session.counted = .ok (.pair head rest) session.counted :=
    inspect_ok stored
  change calls.step expr session = _
  rw [Calls.step, bind_ok passed, bind_ok ticked, bind_ok fetched]

/-- A form runs on its operands once the step is counted. -/
theorem evaluate_of_form (budget : session.HasStepLeft) {expr rest : Handle} {form : SpecialForm}
    (stands : session.IsForm expr form rest) :
    evaluate (.withRoom total) (room + 1) expr session =
      form.run ((CallStack.withRoom total : EvalStack).callsWithin room) rest session.counted := by
  obtain ⟨head, name, combination, reserved, meaning⟩ := stands
  have headed : fetch head session.counted = .ok (.keyword name) session.counted :=
    inspect_ok reserved
  have found : inspect (fun _ words => words.form name) session.counted =
      .ok form session.counted := inspect_ok meaning
  rw [evaluate_of_pair budget combination, Calls.combination, bind_ok headed]
  dsimp only
  rw [bind_ok found]

end Step

end ScopedLisp
