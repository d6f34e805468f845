import ScopedLisp.Proofs.Eval.Change
import ScopedLisp.Proofs.Store.WellFormed

/-!
# What an evaluation leaves in place

Whatever its outcome, an evaluation keeps every record, symbol and text that the session held,
takes no step back and does not touch the step limit. No assumption on the session or on the host's
stack is needed.
-/

namespace ScopedLisp

open Routine

/-- The later session holds what the earlier one held, has counted as many steps or more, and is
under the same limit. -/
structure Session.Advances (session later : Session) : Prop where
  store : session.store.Extends later.store
  steps : session.steps ≤ later.steps
  stepLimit : later.stepLimit = session.stepLimit

namespace Session.Advances

variable {session mid later : Session}

theorem refl (session : Session) : session.Advances session := ⟨.refl _, Nat.le_refl _, rfl⟩

theorem trans (first : session.Advances mid) (second : mid.Advances later) :
    session.Advances later :=
  ⟨first.store.trans second.store, Nat.le_trans first.steps second.steps,
    second.stepLimit.trans first.stepLimit⟩

/-- Changing the scopes and the journal alone. -/
theorem of_eq (store : later.store = session.store) (steps : later.steps = session.steps)
    (stepLimit : later.stepLimit = session.stepLimit) : session.Advances later := by
  refine ⟨?_, Nat.le_of_eq steps.symm, stepLimit⟩
  rw [store]
  exact .refl _

end Session.Advances

/-- Every elementary change advances the session. -/
theorem HoldsOfChanges.advances : HoldsOfChanges Session.Advances where
  refl := .refl
  trans := .trans
  allocate session record :=
    ⟨Store.WellFormed.insert_extends session.store record, Nat.le_refl _, rfl⟩
  write _ _ _ _ := .of_eq rfl rfl rfl
  addFrame _ _ := .of_eq rfl rfl rfl
  active _ _ := .of_eq rfl rfl rfl
  journal _ _ := .of_eq rfl rfl rfl
  countStep _ := ⟨.refl _, Nat.le_succ _, rfl⟩

/-- In every session the first routine advances. -/
def Advancing (α : Type) (routine _other : Routine α) : Prop :=
  ∀ session : Session, session.Advances (Ending.left (routine session))

namespace Advancing

variable {α β : Type}

theorem bind {first first' : Routine α} {next next' : α → Routine β}
    (head : Advancing α first first') (tail : ∀ value, Advancing β (next value) (next' value)) :
    Advancing β (first >>= next) (first' >>= next') := by
  have whole : Leaves Session.Advances β (first >>= next) (first' >>= next') :=
    .bind HoldsOfChanges.advances.quiet head tail
  exact whole

theorem respectful : Respectful Advancing := Leaves.respectful HoldsOfChanges.advances.quiet

section Calls

variable {stack : EvalStack} {room : Nat} {calls : Calls}

theorem reach (stack : EvalStack) (room : Nat) (moment : Moment) :
    Advancing Unit (stack.reach room moment) (stack.reach room moment) :=
  Leaves.reach HoldsOfChanges.advances.quiet stack room moment

theorem tick (checks : calls.reach = stack.reach room) : Advancing Unit calls.tick calls.tick :=
  Leaves.tick .advances checks

theorem enterScope (checks : calls.reach = stack.reach room) (parent : Handle) :
    Advancing Unit (calls.enterScope parent) (calls.enterScope parent) :=
  Leaves.enterScope HoldsOfChanges.advances.quiet checks parent

theorem within (checks : calls.reach = stack.reach room) (parent : Handle) {body body' : Routine α}
    (inner : Advancing α body body') :
    Advancing α (calls.within parent body) (calls.within parent body') := by
  have whole : Leaves Session.Advances α (calls.within parent body) (calls.within parent body') :=
    .within HoldsOfChanges.advances.quiet checks parent inner
  exact whole

/-- An evaluation advances, on any stack. -/
theorem evaluate (stack : EvalStack) (room : Nat) (expr : Handle) (session : Session) :
    session.Advances (Ending.left (evaluate stack room expr session)) :=
  Leaves.evaluate .advances stack room expr session

end Calls

end Advancing

end ScopedLisp
