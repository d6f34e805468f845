import ScopedLisp.Proofs.Eval.Metering
import ScopedLisp.Proofs.Program.Exhaustion

/-!
# The step limit

What a limit on the number of steps changes. The meaning of an evaluation is how it ends on a stack
with enough room. Some evaluations have no end: those use up every stack, however much room it has.

An evaluation that stays within the limit does not notice it. Any other one, with or without an
end, fails under the limit, and it fails at the first step beyond it.
-/

namespace ScopedLisp

open Routine

/-- With enough room on the host's stack, the evaluation ends like this. -/
def EvaluatesTo (expr : Handle) (session : Session) (ending : Ending Handle) : Prop :=
  (∀ left, ending ≠ .error .stackExhausted left) ∧
    ∃ room, evaluate (.withRoom room) room expr session = ending

/-- The evaluation uses up every stack. -/
def Endless (expr : Handle) (session : Session) : Prop :=
  ∀ room, ∃ left, evaluate (.withRoom room) room expr session = .error .stackExhausted left

section Meaning

variable {expr : Handle} {session : Session} {ending ending' : Ending Handle}

/-- On any stack, an evaluation that does not find it used up ends as it does with enough room. -/
theorem EvaluatesTo.of_stack (entered : session.scopes.active ≠ []) (stack : EvalStack) (room : Nat)
    (roomy : ∀ left, evaluate stack room expr session ≠ .error .stackExhausted left) :
    EvaluatesTo expr session (evaluate stack room expr session) := by
  let calm : EvalStack := .withRoom room
  have admits : stack.Admits calm.reach := fun _ _ _ _ => rfl
  have law := KeepsScopes.evalRelation admits fun _ => throw .stackExhausted
  rcases (law.evaluate room expr session entered).2 with same | ⟨left, exhausted⟩
  · exact ⟨roomy, room, same.symm⟩
  · exact absurd exhausted (roomy left)

/-- More room makes no difference to an evaluation that has enough. -/
theorem EvaluatesTo.evaluate_add (entered : session.scopes.active ≠ []) {room : Nat}
    (roomy : ∀ left, ending ≠ .error .stackExhausted left)
    (ends : evaluate (.withRoom room) room expr session = ending) (more : Nat) :
    evaluate (.withRoom (room + more)) (room + more) expr session = ending := by
  let ample : EvalStack := .withRoom (room + more)
  have admits :
      (CallStack.withRoom room : EvalStack).Admits fun left => ample.reach (left + more) :=
    fun _ _ _ _ => rfl
  have law := KeepsScopes.evalRelation admits (evaluate ample more)
  rw [Routine.evaluate_add]
  rcases (law.evaluate room expr session entered).2 with same | ⟨left, exhausted⟩
  · exact same.symm.trans ends
  · exact absurd (ends.symm.trans exhausted) (roomy left)

theorem EvaluatesTo.unique (entered : session.scopes.active ≠ [])
    (first : EvaluatesTo expr session ending) (second : EvaluatesTo expr session ending') :
    ending = ending' := by
  obtain ⟨roomy, room, ends⟩ := first
  obtain ⟨roomy', room', ends'⟩ := second
  have more := evaluate_add entered roomy ends room'
  have more' := evaluate_add entered roomy' ends' room
  rw [Nat.add_comm] at more'
  exact more.symm.trans more'

/-- Any stack gives the one ending, unless it is found used up. -/
theorem EvaluatesTo.equalUnless (entered : session.scopes.active ≠ [])
    (ends : EvaluatesTo expr session ending) (stack : EvalStack) (room : Nat) :
    EqualUnless .stackExhausted (evaluate stack room expr session) ending := by
  by_cases roomy : ∀ left, evaluate stack room expr session ≠ .error .stackExhausted left
  · exact .inl ((of_stack entered stack room roomy).unique entered ends)
  · obtain ⟨left, exhausted⟩ := Classical.not_forall.mp roomy
    exact .inr ⟨left, Classical.not_not.mp exhausted⟩

end Meaning

/-- Started where no step is left, an evaluation fails and touches only the count of steps and the
journal. -/
theorem evaluatesTo_of_limit_le {limit : Nat} {session : Session} (positive : 0 < limit)
    (limited : session.stepLimit = limit) (spent : limit ≤ session.steps) (expr : Handle) :
    EvaluatesTo expr session (.error (.stepLimitExceeded limit)
      { session with
        steps := session.steps + 1
        journal := session.journal.push (.budgetExhausted limit) }) := by
  have exceeded : session.stepLimit ≠ 0 ∧ session.stepLimit < (session.steps + 1 : Nat) := by
    omega
  refine ⟨nofun, 1, ?_⟩
  let calls := (CallStack.withRoom 1 : EvalStack).callsWithin 0
  have checks : calls.reach = (CallStack.withRoom 1 : EvalStack).reach 0 := rfl
  have ticked := Metered.tick_eq checks session
  rw [enforceLimit_eq, if_pos exceeded] at ticked
  have passed : calls.reach .evaluating session = .ok () session := rfl
  change calls.step expr session = _
  rw [Calls.step, bind_ok passed, bind_error ticked]
  simp only [limited]

/-- Under the limit the evaluation fails at the first step beyond it and leaves this session, in
which the scopes are active that were active before. -/
structure ExceedsLimit (limit : Nat) (expr : Handle) (session left : Session) : Prop where
  fails : EvaluatesTo expr (session.limited limit) (.error (.stepLimitExceeded limit) left)
  steps : left.steps = limit + 1
  active : left.scopes.active = session.scopes.active

section Cut

variable {limit : Nat} {expr : Handle} {session : Session} {ending : Ending Handle}

/-- An end within the limit is the end under the limit, and an end beyond it is cut off. -/
theorem evaluatesTo_limited (positive : 0 < limit) (entered : session.scopes.active ≠ [])
    (enough : session.steps ≤ limit) (ends : EvaluatesTo expr (session.limited 0) ending) :
    (ending.left.steps ≤ limit → EvaluatesTo expr (session.limited limit) (ending.limited limit)) ∧
      (limit < ending.left.steps → ∃ left, ExceedsLimit limit expr session left ∧
        left.store.Extends ending.left.store) := by
  obtain ⟨roomy, room, ends⟩ := ends
  have metered := Metered.evaluate room room positive expr
  have cut := metered.cutOff (session.limited 0) entered rfl enough
  rw [ends] at cut
  cases cut with
  | within inside same =>
    refine ⟨fun _ => ⟨?_, room, same⟩, fun further => absurd inside (Nat.not_le_of_lt further)⟩
    cases ending with
    | ok value left => exact nofun
    | error failure left =>
      rintro _ ⟨⟩
      exact roomy left rfl
  | @beyond left failed steps further store =>
    refine ⟨fun inside => absurd further (Nat.not_lt_of_le inside), fun _ => ?_⟩
    have restored := metered.keeps.active_left
      (show (session.limited limit).scopes.active ≠ [] from entered)
    rw [show evaluate _ room expr (session.limited limit) = _ from failed] at restored
    exact ⟨left, ⟨⟨nofun, room, failed⟩, steps, restored⟩, store⟩

/-- An evaluation without an end is cut off: the steps that it takes on a large stack are too
many. -/
theorem Endless.exceedsLimit (endless : Endless expr (session.limited 0)) (positive : 0 < limit)
    (entered : session.scopes.active ≠ []) (enough : session.steps ≤ limit) :
    ∃ left, ExceedsLimit limit expr session left := by
  let room := limit + 1
  obtain ⟨last, exhausted⟩ := endless room
  have metered := Metered.evaluate room room positive expr
  have taken := metered.exhausted (session.limited 0) last entered exhausted
  have cut := metered.cutOff (session.limited 0) entered rfl enough
  rw [exhausted] at cut
  cases cut with
  | within inside _ =>
    have counted : last.steps ≤ limit := inside
    omega
  | @beyond left failed steps _ _ =>
    have restored := metered.keeps.active_left
      (show (session.limited limit).scopes.active ≠ [] from entered)
    rw [show evaluate _ room expr (session.limited limit) = _ from failed] at restored
    exact ⟨left, ⟨nofun, room, failed⟩, steps, restored⟩

end Cut

/-- The limit shows only in the evaluation that goes beyond it.

An evaluation that ends within the limit ends in the same way under it, and the sessions left
differ in nothing but the limit itself. One that takes more steps, or that never ends, fails with
the limit at the first step too many, when what it has stored is part of what the whole evaluation
stores. It restores the active scopes. From then on every evaluation fails with the limit and
leaves the store and the scopes as they are.

All this is said of stacks with enough room. Any other stack gives the same ending or is found
used up. -/
theorem step_limit_transparent (session : Session) (entered : session.scopes.active ≠ [])
    (limit : Nat) (positive : 0 < limit) (enough : session.steps ≤ limit) (expr : Handle) :
    (∀ ending, EvaluatesTo expr (session.limited 0) ending → ending.left.steps ≤ limit →
      EvaluatesTo expr (session.limited limit) (ending.limited limit)) ∧
    (∀ ending, EvaluatesTo expr (session.limited 0) ending → limit < ending.left.steps →
      ∃ left, ExceedsLimit limit expr session left ∧ left.store.Extends ending.left.store) ∧
    (Endless expr (session.limited 0) → ∃ left, ExceedsLimit limit expr session left) ∧
    (∀ later : Session, later.stepLimit = limit → limit ≤ later.steps → ∀ next,
      EvaluatesTo next later (.error (.stepLimitExceeded limit)
        { later with
          steps := later.steps + 1
          journal := later.journal.push (.budgetExhausted limit) })) ∧
    (∀ other : Nat, ∀ ending, EvaluatesTo expr (session.limited other) ending → ∀ stack room,
      EqualUnless .stackExhausted (evaluate stack room expr (session.limited other)) ending) := by
  refine ⟨?_, ?_, ?_, ?_, ?_⟩
  · intro ending ends
    exact (evaluatesTo_limited positive entered enough ends).1
  · intro ending ends
    exact (evaluatesTo_limited positive entered enough ends).2
  · intro endless
    exact endless.exceedsLimit positive entered enough
  · intro later limited spent next
    exact evaluatesTo_of_limit_le positive limited spent next
  · intro other ending ends stack room
    exact EvaluatesTo.equalUnless
      (show (session.limited other).scopes.active ≠ [] from entered) ends stack room

/-- A new session into which the sum of one and two was put, at the last handle. -/
def summing : Session :=
  let place : Routine Handle := do
    let operands ← [Record.operator "+", .integer 1, .integer 2].mapM allocate
    allocateList operands none
  place.after (.start .standard 0)

/-- The sum takes three steps. A limit of one cuts it off at its first operand. -/
theorem step_limit_transparent_of_sum :
    summing.scopes.active ≠ [] ∧ 0 < 1 ∧ summing.steps ≤ 1 ∧
      ∃ left, ExceedsLimit 1 ⟨.objects, 6, 0⟩ summing left := by
  let expr : Handle := ⟨.objects, 6, 0⟩
  have entered : summing.scopes.active ≠ [] := by decide
  have enough : summing.steps ≤ 1 := by decide
  have ends : EvaluatesTo expr (summing.limited 0)
      (evaluate (.withRoom 2) 2 expr (summing.limited 0)) := by
    have succeeds : (evaluate (.withRoom 2) 2 expr).failure? (summing.limited 0) = none := by
      decide
    refine ⟨fun left exhausted => ?_, 2, rfl⟩
    simp only [failure?, exhausted, reduceCtorEq] at succeeds
  have further : 1 < (Ending.left (evaluate (.withRoom 2) 2 expr (summing.limited 0))).steps := by
    decide
  obtain ⟨_, beyond, _⟩ := step_limit_transparent summing entered 1 Nat.one_pos enough expr
  obtain ⟨left, exceeds, _⟩ := beyond _ ends further
  exact ⟨entered, Nat.one_pos, enough, left, exceeds⟩

end ScopedLisp
