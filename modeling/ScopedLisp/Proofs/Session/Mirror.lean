import ScopedLisp.Proofs.Ending
import ScopedLisp.Proofs.Scopes.Search

/-!
# Changes that a routine does not see

A session may be changed in a part that has no influence on the course of a routine. In the changed
session the routine then yields the same value, and it leaves what it leaves otherwise, changed. If
it fails, the failure may be told in other words.

What is proved here holds of every change that touches neither the scopes nor the steps.
-/

namespace ScopedLisp

open Routine

/-- The ending, with the session that is left and the failure changed. -/
def Ending.changed (change : Session → Session) (mend : Failure → Failure) {α : Type} :
    Ending α → Ending α
  | .ok value left => .ok value (change left)
  | .error failure left => .error (mend failure) (change left)

/-- The second routine does in a changed session what the first one does, seen through the change.
-/
def Mirrors (change : Session → Session) (mend : Failure → Failure) (α : Type)
    (routine routine' : Routine α) : Prop :=
  ∀ session, routine' (change session) = Ending.changed change mend (routine session)

/-- The scopes, the steps and their limit are what they were, and it does not matter whether they
and the journal are written before the change or after it. A failure of evaluation stays the same.
-/
structure Unseen (change : Session → Session) (mend : Failure → Failure) : Prop where
  scopes : ∀ session, (change session).scopes = session.scopes
  steps : ∀ session, (change session).steps = session.steps
  stepLimit : ∀ session, (change session).stepLimit = session.stepLimit
  withScopes : ∀ session scopes, change { session with scopes } = { change session with scopes }
  withSteps : ∀ session steps, change { session with steps } = { change session with steps }
  report : ∀ session event, change { session with journal := session.journal.push event } =
    { change session with journal := (change session).journal.push event }
  fixed : ∀ failure, failure.isOfEvaluation = true → mend failure = failure
  malformed : ∀ defect, ∃ other, mend (.malformedSource defect) = .malformedSource other

namespace Mirrors

variable {change : Session → Session} {mend : Failure → Failure} {α β : Type}

theorem pure (value : α) : Mirrors change mend α (pure value) (Pure.pure value) := fun _ => rfl

/-- Two routines that do not see the change do not see it one after the other. -/
theorem bind {first first' : Routine α} {next next' : α → Routine β}
    (head : Mirrors change mend α first first')
    (tail : ∀ value, Mirrors change mend β (next value) (next' value)) :
    Mirrors change mend β (first >>= next) (first' >>= next') := by
  intro session
  have same := head session
  cases result : first session with
  | ok value mid =>
    rw [result] at same
    rw [bind_ok result, bind_ok same]
    exact tail value mid
  | error failure left =>
    rw [result] at same
    rw [bind_error result, bind_error same]
    rfl

/-- The body and the cleanup after it. -/
theorem ensuring {body body' : Routine α} {cleanup cleanup' : Routine Unit}
    (inner : Mirrors change mend α body body') (final : Mirrors change mend Unit cleanup cleanup') :
    Mirrors change mend α (ensuring body cleanup) (Routine.ensuring body' cleanup') := by
  intro session
  have same := inner session
  cases result : body session with
  | ok value mid =>
    rw [result] at same
    rw [ensuring_ok result, ensuring_ok same]
    exact final.bind (fun _ => pure value) mid
  | error failure mid =>
    rw [result] at same
    rw [ensuring_error result, ensuring_error same]
    have cleaned := final mid
    cases last : cleanup mid with
    | ok done left =>
      rw [last] at cleaned
      rw [bind_ok last, bind_ok cleaned]
      rfl
    | error other left =>
      rw [last] at cleaned
      rw [bind_error last, bind_error cleaned]
      rfl

section Primitives

variable (law : Unseen change mend)
include law

theorem fail {failure : Failure} (ofEvaluation : failure.isOfEvaluation = true) :
    Mirrors change mend α (throw failure) (throw failure) :=
  fun session => congrArg (EStateM.Result.error · (change session))
    (law.fixed failure ofEvaluation).symm

/-- What is read off the session alike before the change and after it. -/
theorem reading {routine : Routine α} (read : Session → Except Failure α)
    (reads : ∀ session, routine session = (ofExcept (read session) : Routine α) session)
    (same : ∀ session, read (change session) = read session)
    (fails : ∀ session, FailsWithin Failure.isOfEvaluation (read session)) :
    Mirrors change mend α routine routine := by
  intro session
  rw [reads, reads, same]
  cases found : read session with
  | ok value => rfl
  | error failure => exact fail law (fails session failure found) session

/-- Reporting an event that is told by the scopes. -/
theorem reporting (event : Scopes → Event) {routine : Routine Unit}
    (reports : ∀ session, routine session =
      .ok () { session with journal := session.journal.push (event session.scopes) }) :
    Mirrors change mend Unit routine routine := by
  intro session
  rw [reports, reports, Ending.changed, law.report]
  simp only [law.scopes]

theorem currentScope : Mirrors change mend Handle currentScope currentScope := by
  refine reading law (fun session => session.scopes.current) (fun _ => rfl) ?_ ?_
  · intro session
    rw [law.scopes]
  · exact fun session => Scopes.current_failsWithin (.ofEvaluation _)

theorem countStep : Mirrors change mend Unit countStep countStep := by
  intro session
  have counts (session : Session) : Routine.countStep session =
      .ok () { session with steps := session.steps + 1 } := rfl
  rw [counts, counts, Ending.changed, law.withSteps session (session.steps + 1)]
  simp only [law.steps]

theorem enforceLimit : Mirrors change mend Unit enforceLimit enforceLimit := by
  intro session
  rw [enforceLimit_eq, enforceLimit_eq, law.stepLimit, law.steps]
  split
  · rw [Ending.changed, law.report, law.fixed (.stepLimitExceeded _) rfl]
    simp only [law.steps, law.stepLimit]
  · rfl

/-- A frame is made alike on both sides. -/
theorem makeFrame (parent : Option Handle) :
    Mirrors change mend (Handle × Option Handle) (makeFrame parent) (makeFrame parent) := by
  intro session
  cases found : session.scopes.parentFor parent with
  | ok link =>
    rw [makeFrame_ok found, makeFrame_ok ((law.scopes session).symm ▸ found), Ending.changed,
      law.withScopes session (session.scopes.addFrame link).1]
    simp only [law.scopes]
  | error failure =>
    have ofEvaluation : failure.isOfEvaluation = true :=
      (Scopes.AllowsSearch.ofEvaluation session.scopes).ordinary
        (session.scopes.parentFor_failsOrdinarily parent failure found)
    rw [makeFrame_error found, makeFrame_error ((law.scopes session).symm ▸ found),
      Ending.changed, law.fixed failure ofEvaluation]

theorem activate (scope : Handle) :
    Mirrors change mend Unit (activate scope) (activate scope) := by
  intro session
  have activates (session : Session) : Routine.activate scope session =
      .ok () { session with scopes := session.scopes.activate scope } := rfl
  rw [activates, activates, Ending.changed,
    law.withScopes session (session.scopes.activate scope)]
  simp only [law.scopes]

/-- A scope is left alike on both sides. -/
theorem leave : Mirrors change mend Handle leave leave := by
  intro session
  rcases shape : session.scopes.active with _ | ⟨scope, _ | ⟨next, outer⟩⟩
  case cons.cons =>
    have shape' : (change session).scopes.active = scope :: next :: outer := by
      rw [law.scopes, shape]
    rw [leave_eq shape, leave_eq shape']
    rw [Ending.changed,
      law.withScopes session { session.scopes with active := next :: outer }]
    simp only [law.scopes]
  all_goals
    have few : session.scopes.active.length ≤ 1 := by
      rw [shape]
      exact Nat.le_of_ble_eq_true rfl
    have few' : (change session).scopes.active.length ≤ 1 := by
      rwa [law.scopes]
    rw [leave_of_few few, leave_of_few few', Ending.changed, law.fixed _ rfl]

end Primitives

section Calls

variable (law : Unseen change mend) {calls calls' : Calls}
  (checks : ∀ moment, Mirrors change mend Unit (calls.reach moment) (calls'.reach moment))
include law checks

/-- A step is counted, and the limit enforced, alike on both sides. -/
theorem tick : Mirrors change mend Unit calls.tick calls'.tick :=
  (countStep law).bind fun _ => (checks .counted).bind fun _ => enforceLimit law

theorem enterScope (parent : Handle) :
    Mirrors change mend Unit (calls.enterScope parent) (calls'.enterScope parent) := by
  apply (checks .entering).bind
  intro _
  apply (makeFrame law (some parent)).bind
  intro made
  refine (checks .entering).bind fun _ => (activate law made.1).bind fun _ => ?_
  refine (checks .entered).bind fun _ => ?_
  exact reporting law (fun scopes => .scopeEntered made.1.index (made.2.map (·.index)) scopes.depth)
    fun _ => rfl

theorem exitScope : Mirrors change mend Unit calls.exitScope calls'.exitScope := by
  refine (checks .leaving).bind fun _ => (leave law).bind fun scope => ?_
  refine (checks .left).bind fun _ => ?_
  exact reporting law (fun scopes => .scopeLeft scope.index scopes.depth) fun _ => rfl

/-- A body in a scope of its own does not see the change if it does not see it outside. -/
theorem within (parent : Handle) {body body' : Routine α}
    (inner : Mirrors change mend α body body') :
    Mirrors change mend α (calls.within parent body) (calls'.within parent body') := by
  have applied : Mirrors change mend Unit (do report (.procedureApplied (← get).scopes.depth))
      (do report (.procedureApplied (← get).scopes.depth)) :=
    reporting law (fun scopes => .procedureApplied scopes.depth) fun _ => rfl
  apply (enterScope law checks parent).bind
  intro _
  exact applied.bind fun _ => inner.ensuring (exitScope law checks)

end Calls

/-- Both routines run out of the host's stack or neither does. -/
theorem guarded (law : Unseen change mend) {body body' : Routine α}
    (inner : Mirrors change mend α body body') :
    Mirrors change mend α (guarded body) (Routine.guarded body') := by
  intro session
  have same := inner session
  unfold Routine.guarded
  cases result : body session with
  | ok value left =>
    rw [result] at same
    rw [same]
    rfl
  | error failure left =>
    rw [result] at same
    rw [same, Ending.changed]
    cases failure with
    | stackExhausted =>
      have unwinds : (change left).scopes.unwind (change session).scopes.depth =
          left.scopes.unwind session.scopes.depth := by rw [law.scopes, law.scopes]
      rw [law.fixed _ rfl]
      dsimp only
      rw [unwinds]
      cases unwound : left.scopes.unwind session.scopes.depth with
      | ok scopes => rw [Ending.changed, law.fixed _ rfl, law.withScopes left scopes]
      | error failure =>
        have ofEvaluation : failure.isOfEvaluation = true := by
          unfold Scopes.unwind at unwound
          split at unwound <;> cases unwound
          rfl
        rw [Ending.changed, law.fixed failure ofEvaluation]
    | malformedSource defect =>
      obtain ⟨other, mended⟩ := law.malformed defect
      rw [mended]
      exact congrArg (EStateM.Result.error · (change left)) mended.symm
    | _ =>
      rw [law.fixed _ rfl]
      exact congrArg (EStateM.Result.error · (change left)) (law.fixed _ rfl).symm

end Mirrors

end ScopedLisp
