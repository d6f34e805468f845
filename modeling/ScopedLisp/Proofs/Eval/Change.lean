import ScopedLisp.Proofs.Ending
import ScopedLisp.Proofs.Eval.Relation

/-!
# What an evaluation changes

All that an evaluation does to a session is made up of a few elementary changes: a record is
allocated, a binding is written, a frame is made, scopes are entered and left, an event is reported,
a step is counted. A relation between sessions that holds of each of these changes, and of several
changes in a row, holds of every evaluation, whatever its outcome. No assumption on the session or
on the host's stack is needed.
-/

namespace ScopedLisp

open Routine

/-- `P` holds of the session before and after each elementary change but the counting of a step, and
so it does of changes in a row and of none. -/
structure HoldsOfQuietChanges (P : Session → Session → Prop) : Prop where
  refl : ∀ session, P session session
  trans : ∀ {session mid later}, P session mid → P mid later → P session later
  allocate : ∀ (session : Session) record,
    P session
      { session with store := { session.store with heap := (session.store.heap.insert record).1 } }
  write : ∀ (session : Session) place symbol value,
    P session { session with scopes := session.scopes.write place symbol value }
  addFrame : ∀ (session : Session) parent,
    P session { session with scopes := (session.scopes.addFrame parent).1 }
  active : ∀ (session : Session) active,
    P session { session with scopes := { session.scopes with active } }
  journal : ∀ (session : Session) journal, P session { session with journal }

/-- `P` holds of the session before and after each elementary change. -/
structure HoldsOfChanges (P : Session → Session → Prop) : Prop
    extends quiet : HoldsOfQuietChanges P where
  countStep : ∀ session : Session, P session { session with steps := session.steps + 1 }

/-- In every session `P` holds of what the first routine leaves. -/
def Leaves (P : Session → Session → Prop) (α : Type) (routine _other : Routine α) : Prop :=
  ∀ session : Session, P session (Ending.left (routine session))

namespace Leaves

variable {P : Session → Session → Prop} {α β : Type}

section Quiet

variable (law : HoldsOfQuietChanges P)
include law

/-- A routine followed by another leaves the session in the relation if both do, since the relation
is transitive. -/
theorem bind {first first' : Routine α} {next next' : α → Routine β}
    (head : Leaves P α first first') (tail : ∀ value, Leaves P β (next value) (next' value)) :
    Leaves P β (first >>= next) (first' >>= next') :=
  @after_bind _ _ P law.trans _ _ head tail

/-- A routine that reads the session and leaves it as it is. -/
theorem of_left_eq {routine : Routine α}
    (same : ∀ session, Ending.left (routine session) = session) : Leaves P α routine routine := by
  intro session
  rw [same session]
  exact law.refl session

/-- Writing a binding is a quiet change: it takes no step and reports nothing. -/
theorem writeBinding
    (find : (session : Session) → Except Failure (Fin session.scopes.frames.size))
    (symbol value : Handle) :
    Leaves P Unit (writeBinding find symbol value) (Routine.writeBinding find symbol value) := by
  intro session
  unfold Routine.writeBinding
  split
  · exact law.write session _ symbol value
  · exact law.refl session

/-- Reading the session changes nothing. -/
theorem inspect (read : Store → Vocabulary → Except Failure α) :
    Leaves P α (inspect read) (Routine.inspect read) := by
  apply of_left_eq law
  intro session
  cases found : read session.store session.vocabulary with
  | ok value => rw [inspect_ok found]; rfl
  | error failure => rw [inspect_error found]; rfl

theorem currentScope : Leaves P Handle currentScope Routine.currentScope := by
  apply of_left_eq law
  intro session
  unfold Routine.currentScope
  rw [bind_ok (get_ok session)]
  cases session.scopes.current <;> rfl

theorem lookupSymbol (symbol : Handle) :
    Leaves P Handle (lookupSymbol symbol) (Routine.lookupSymbol symbol) := by
  apply of_left_eq law
  intro session
  cases found : session.scopes.lookup session.store.symbols.name symbol with
  | ok value => rw [lookupSymbol_ok found]; rfl
  | error failure => rw [lookupSymbol_error found]; rfl

/-- The operations on bindings and objects leave the session in the relation. -/
theorem respectful : Respectful (Leaves P) where
  pure _ := of_left_eq law fun _ => rfl
  bind := bind law
  inspect _ := inspect law _
  allocate record session := law.allocate session record
  currentScope := currentScope law
  lookupSymbol := lookupSymbol law
  bindSymbol symbol value := writeBinding law _ symbol value
  assignSymbol symbol value := writeBinding law _ symbol value

theorem report (event : Event) : Leaves P Unit (report event) (Routine.report event) :=
  fun session => law.journal session _

/-- A body with a cleanup leaves the session in the relation if both do, however the body ends. -/
theorem ensuring {body body' : Routine α} {cleanup cleanup' : Routine Unit}
    (inner : Leaves P α body body') (after : Leaves P Unit cleanup cleanup') :
    Leaves P α (ensuring body cleanup) (Routine.ensuring body' cleanup') := by
  intro session
  have before := inner session
  cases result : body session with
  | ok value mid =>
    rw [result] at before
    rw [ensuring_ok result]
    exact law.trans before (bind law after (fun _ => (respectful law).pure value) mid)
  | error failure mid =>
    have failing : Leaves P α (throw failure) (throw failure) := of_left_eq law fun _ => rfl
    rw [result] at before
    rw [ensuring_error result]
    exact law.trans before (bind law after (fun _ => failing) mid)

/-- Scopes that are left over when the stack runs out are left as well. -/
theorem guarded {body body' : Routine α} (inner : Leaves P α body body') :
    Leaves P α (guarded body) (Routine.guarded body') := by
  intro session
  have before := inner session
  unfold Routine.guarded
  split
  · next left exhausted =>
    rw [exhausted] at before
    by_cases shallow : (session.scopes.depth : Int) < 1
    · rw [Scopes.unwind, if_pos shallow]
      exact before
    · rw [Scopes.unwind, if_neg shallow]
      exact law.trans before (law.active left _)
  · exact before

section Calls

variable {stack : EvalStack} {room : Nat} {calls : Calls}

theorem reach (stack : EvalStack) (room : Nat) (moment : Moment) :
    Leaves P Unit (stack.reach room moment) (stack.reach room moment) := by
  apply of_left_eq law
  intro session
  rw [CallStack.reach_eq]
  split <;> rfl

theorem makeFrame (parent : Option Handle) :
    Leaves P (Handle × Option Handle) (makeFrame parent) (Routine.makeFrame parent) := by
  intro session
  cases found : session.scopes.parentFor parent with
  | ok link => rw [makeFrame_ok found]; exact law.addFrame session link
  | error failure => rw [makeFrame_error found]; exact law.refl session

theorem enterScope (checks : calls.reach = stack.reach room) (parent : Handle) :
    Leaves P Unit (calls.enterScope parent) (calls.enterScope parent) := by
  have checking := reach law stack room
  rw [← checks] at checking
  have activating (scope : Handle) : Leaves P Unit (activate scope) (activate scope) :=
    fun session => law.active session _
  apply bind law (checking .entering)
  intro _
  apply bind law (makeFrame law (some parent))
  intro made
  refine bind law (checking .entering) fun _ => bind law (activating made.1) fun _ => ?_
  exact bind law (checking .entered) fun _ session => law.journal session _

theorem leave : Leaves P Handle leave Routine.leave := by
  intro session
  rcases shape : session.scopes.active with _ | ⟨scope, _ | ⟨next, outer⟩⟩
  · rw [leave_of_few (by rw [shape]; exact Nat.zero_le 1)]
    exact law.refl session
  · rw [leave_of_few (by rw [shape]; exact Nat.le_refl 1)]
    exact law.refl session
  · rw [leave_eq shape]
    exact law.active session _

theorem exitScope (checks : calls.reach = stack.reach room) :
    Leaves P Unit calls.exitScope calls.exitScope := by
  have checking := reach law stack room
  rw [← checks] at checking
  refine bind law (checking .leaving) fun _ => bind law (leave law) fun _ => ?_
  exact bind law (checking .left) fun _ session => law.journal session _

/-- A body in a scope of its own leaves the session in the relation if it does so outside. -/
theorem within (checks : calls.reach = stack.reach room) (parent : Handle) {body body' : Routine α}
    (inner : Leaves P α body body') :
    Leaves P α (calls.within parent body) (calls.within parent body') := by
  have reading : Leaves P Session get get := of_left_eq law fun _ => rfl
  refine bind law (enterScope law checks parent) fun _ => bind law reading fun _ => ?_
  exact bind law (report law _) fun _ => ensuring law inner (exitScope law checks)

end Calls

end Quiet

section Counting

variable (law : HoldsOfChanges P)
include law

/-- Counting a step leaves the session in the relation, if the relation allows for counting. -/
theorem tick {stack : EvalStack} {room : Nat} {calls : Calls}
    (checks : calls.reach = stack.reach room) : Leaves P Unit calls.tick calls.tick := by
  have counting : Leaves P Unit countStep countStep := law.countStep
  have comparing : Leaves P Unit enforceLimit enforceLimit := by
    intro session
    rw [enforceLimit_eq]
    split
    · exact law.journal session _
    · exact law.refl session
  have checking := reach law.quiet stack room .counted
  rw [← checks] at checking
  exact bind law.quiet counting fun _ => bind law.quiet checking fun _ => comparing

/-- Evaluation leaves every session in the relation, on success and on failure. -/
theorem evaluate (stack : EvalStack) (room : Nat) (expr : Handle) :
    Leaves P Handle (evaluate stack room expr) (ScopedLisp.evaluate stack room expr) := by
  have evaluation : EvalRelation stack stack.reach (fun _ => throw .stackExhausted) (Leaves P) :=
    { respectful law.quiet with
      reach := reach law.quiet stack
      exhausted := fun _ => of_left_eq law.quiet fun _ => rfl
      tick := fun _ _ _ checks _ => tick law checks
      within := fun _ _ _ checks _ _ parent _ _ inner => within law.quiet checks parent inner }
  exact evaluation.evaluate room expr

end Counting

end Leaves

end ScopedLisp
