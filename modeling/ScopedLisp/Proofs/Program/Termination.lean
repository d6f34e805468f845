import ScopedLisp.Proofs.Eval.Safety
import ScopedLisp.Proofs.Program.Reachable
import ScopedLisp.Proofs.Program.StepLimit

/-!
# Termination under a step limit

Procedures may call one another without an end, and what they evaluate gets no smaller on the way.
But every nested evaluation counts a step, and under a limit no step is counted after the first one
too many. So a stack with room for the steps that are left is roomy enough, and all that happens
between two steps is bounded by the heap, whose links lead to older objects only.
-/

namespace ScopedLisp

open Routine

/-- The number of steps until the limit is reached. -/
def Session.stepsLeft (session : Session) : Nat := (session.stepLimit - session.steps).toNat

/-- The limit is unchanged, and of the steps counted beyond it there is none, or a single one where
the ending is a failure. A session may have been beyond it before. -/
def SpentWithin (limit before : Nat) {α : Type} : Ending α → Prop
  | .ok _ left => left.stepLimit = limit ∧ left.steps ≤ max before limit
  | .error _ left => left.stepLimit = limit ∧ left.steps ≤ max before limit + 1

/-- Under the limit the first routine counts no steps beyond it but the one at which it fails. -/
def Frugal (limit : Nat) (α : Type) (routine _other : Routine α) : Prop :=
  ∀ session : Session, session.stepLimit = limit → SpentWithin limit session.steps (routine session)

/-- The count of steps and its limit are the same in both sessions. -/
def Session.CountsAlike (session later : Session) : Prop :=
  later.steps = session.steps ∧ later.stepLimit = session.stepLimit

theorem HoldsOfQuietChanges.countsAlike : HoldsOfQuietChanges Session.CountsAlike where
  refl _ := ⟨rfl, rfl⟩
  trans first second := ⟨second.1.trans first.1, second.2.trans first.2⟩
  allocate _ _ := ⟨rfl, rfl⟩
  write _ _ _ _ := ⟨rfl, rfl⟩
  addFrame _ _ := ⟨rfl, rfl⟩
  active _ _ := ⟨rfl, rfl⟩
  journal _ _ := ⟨rfl, rfl⟩

namespace Frugal

variable {limit : Nat} {α β : Type}

/-- A routine that counts no step. -/
theorem of_quiet {routine other : Routine α} (quiet : Leaves Session.CountsAlike α routine other) :
    Frugal limit α routine other := by
  intro session limited
  have counts := quiet session
  cases result : routine session with
  | ok value left =>
    rw [result] at counts
    exact ⟨counts.2.trans limited, counts.1 ▸ Nat.le_max_left _ _⟩
  | error failure left =>
    rw [result] at counts
    exact ⟨counts.2.trans limited, counts.1 ▸ Nat.le_succ_of_le (Nat.le_max_left _ _)⟩

theorem bind {first first' : Routine α} {next next' : α → Routine β}
    (head : Frugal limit α first first')
    (tail : ∀ value, Frugal limit β (next value) (next' value)) :
    Frugal limit β (first >>= next) (first' >>= next') := by
  intro session limited
  have before := head session limited
  cases result : first session with
  | error failure mid =>
    rw [result] at before
    rw [bind_error result]
    exact before
  | ok value mid =>
    rw [result] at before
    obtain ⟨still, few⟩ := before
    have after := tail value mid still
    rw [bind_ok result]
    cases ending : next value mid with
    | ok other left =>
      rw [ending] at after
      exact ⟨after.1, after.2.trans (max_le few (Nat.le_max_right _ _))⟩
    | error failure left =>
      rw [ending] at after
      exact ⟨after.1, after.2.trans (Nat.succ_le_succ (max_le few (Nat.le_max_right _ _)))⟩

theorem respectful (limit : Nat) : Respectful (Frugal limit) :=
  let quiet := Leaves.respectful .countsAlike
  { pure := fun value => of_quiet (quiet.pure value)
    bind := bind
    inspect := fun plain => of_quiet (quiet.inspect plain)
    allocate := fun record => of_quiet (quiet.allocate record)
    currentScope := of_quiet quiet.currentScope
    lookupSymbol := fun symbol => of_quiet (quiet.lookupSymbol symbol)
    bindSymbol := fun symbol value => of_quiet (quiet.bindSymbol symbol value)
    assignSymbol := fun symbol value => of_quiet (quiet.assignSymbol symbol value) }

/-- What is done afterwards in any case counts no step. -/
theorem ensuring {body body' : Routine α} {cleanup cleanup' : Routine Unit}
    (inner : Frugal limit α body body') (after : Leaves Session.CountsAlike Unit cleanup cleanup') :
    Frugal limit α (ensuring body cleanup) (Routine.ensuring body' cleanup') := by
  intro session limited
  have before := inner session limited
  cases result : body session with
  | ok value mid =>
    have counts := after mid
    rw [result] at before
    rw [ensuring_ok result]
    cases cleaned : cleanup mid with
    | ok _ left =>
      rw [cleaned] at counts
      rw [bind_ok cleaned]
      exact ⟨counts.2.trans before.1, counts.1 ▸ before.2⟩
    | error failure left =>
      rw [cleaned] at counts
      rw [bind_error cleaned]
      exact ⟨counts.2.trans before.1, counts.1 ▸ Nat.le_succ_of_le before.2⟩
  | error failure mid =>
    have counts := after mid
    rw [result] at before
    rw [ensuring_error result]
    cases cleaned : cleanup mid with
    | ok _ left =>
      rw [cleaned] at counts
      rw [bind_ok cleaned]
      exact ⟨counts.2.trans before.1, counts.1 ▸ before.2⟩
    | error other left =>
      rw [cleaned] at counts
      rw [bind_error cleaned]
      exact ⟨counts.2.trans before.1, counts.1 ▸ before.2⟩

section Calls

variable {stack : EvalStack} {room : Nat} {calls : Calls}

/-- The step beyond the limit is the last one. -/
theorem tick (positive : 0 < limit) (checks : calls.reach = stack.reach room) :
    Frugal limit Unit calls.tick calls.tick := by
  intro session limited
  let counted := { session with steps := session.steps + 1 }
  have close : SpentWithin limit session.steps (.error .stackExhausted counted : Ending Unit) :=
    ⟨limited, Nat.succ_le_succ (Nat.le_max_left _ _)⟩
  rw [Calls.tick, checks, bind_ok (rfl : countStep session = .ok () counted), CallStack.reach_bind]
  by_cases early : stack.failsAt .counted room counted = true
  · rw [if_pos early]
    exact close
  · rw [if_neg early, enforceLimit_eq]
    by_cases exceeded : counted.stepLimit ≠ 0 ∧ counted.stepLimit < counted.steps
    · rw [if_pos exceeded]
      exact close
    · have few : counted.steps ≤ limit := by
        have same : counted.stepLimit = limit := limited
        omega
      rw [if_neg exceeded]
      exact ⟨limited, few.trans (Nat.le_max_right _ _)⟩

theorem within (checks : calls.reach = stack.reach room) (parent : Handle) {body body' : Routine α}
    (inner : Frugal limit α body body') :
    Frugal limit α (calls.within parent body) (calls.within parent body') := by
  have quiet := HoldsOfQuietChanges.countsAlike
  have reading : Frugal limit Session get get := of_quiet (Leaves.of_left_eq quiet fun _ => rfl)
  have reporting (event : Event) : Frugal limit Unit (report event) (report event) :=
    of_quiet (Leaves.report quiet event)
  refine (of_quiet (Leaves.enterScope quiet checks parent)).bind fun _ => reading.bind fun _ => ?_
  exact (reporting _).bind fun _ => inner.ensuring (Leaves.exitScope quiet checks)

/-- An evaluation is frugal, on any stack. -/
theorem evaluate (positive : 0 < limit) (stack : EvalStack) (room : Nat) (expr : Handle) :
    Frugal limit Handle (evaluate stack room expr) (ScopedLisp.evaluate stack room expr) := by
  have quiet := HoldsOfQuietChanges.countsAlike
  have evaluation : EvalRelation stack stack.reach (fun _ => throw .stackExhausted)
      (Frugal limit) :=
    { respectful limit with
      reach := fun room moment => of_quiet (Leaves.reach quiet stack room moment)
      exhausted := fun _ => of_quiet (Leaves.of_left_eq quiet fun _ => rfl)
      tick := fun _ _ _ checks _ => tick positive checks
      within := fun _ _ _ checks _ _ parent _ _ inner => within checks parent inner }
  exact evaluation.evaluate room expr

end Calls

/-- On any stack an evaluation counts as many steps as are left, and one more. -/
theorem steps_le {session : Session} (limited : 0 < session.stepLimit) (stack : EvalStack)
    (room : Nat) (expr : Handle) :
    (Ending.left (ScopedLisp.evaluate stack room expr session)).steps ≤
      session.steps + (session.stepsLeft + 1) := by
  unfold Session.stepsLeft
  obtain ⟨limit, same⟩ := Int.eq_ofNat_of_zero_le (Int.le_of_lt limited)
  have positive : 0 < limit := by omega
  have spent := Frugal.evaluate positive stack room expr session same
  have bound : (Ending.left (ScopedLisp.evaluate stack room expr session)).steps ≤
      max session.steps limit + 1 := by
    cases result : ScopedLisp.evaluate stack room expr session with
    | ok value left =>
      rw [result] at spent
      exact Nat.le_succ_of_le spent.2
    | error failure left =>
      rw [result] at spent
      exact spent.2
  omega

end Frugal

/-- Under a limit a stack is roomy enough if it has room for two nested evaluations more than there
are steps left, since each of them counts a step. -/
theorem evaluate_ne_stackExhausted {session left : Session} (entered : session.scopes.active ≠ [])
    (limited : 0 < session.stepLimit) {room : Nat}
    (enough : session.stepsLeft + 1 < room) (expr : Handle) :
    evaluate (.withRoom room) room expr session ≠ .error .stackExhausted left := by
  intro exhausted
  have metered := Metered.evaluate room room Nat.one_pos expr
  have taken := metered.exhausted session left entered exhausted
  have few := Frugal.steps_le limited (.withRoom room) room expr
  rw [exhausted] at few
  have counted : left.steps ≤ session.steps + (session.stepsLeft + 1) := few
  omega

/-- Under a limit every evaluation comes to an end, whatever procedures there are to be called. The
end is the same on every stack with enough room, it is no fault and no endless walk, and on the way
as many steps are counted as are left and one more at the most. On any other stack the evaluation
ends in the same way or finds the stack used up, after no more steps than that. -/
theorem evaluation_ends_within_limit {session : Session} (wf : session.WellFormed)
    (limited : 0 < session.stepLimit) {expr : Handle} (held : session.store.Holds expr) :
    (∃ ending,
      (∀ room, session.stepsLeft + 1 < room →
        evaluate (.withRoom room) room expr session = ending) ∧
      (∀ failure left, ending = .error failure left →
        failure.isSafe = true ∧ failure ≠ .stackExhausted) ∧
      ∀ stack room, EqualUnless .stackExhausted (evaluate stack room expr session) ending) ∧
    ∀ stack room, session.steps ≤ (Ending.left (evaluate stack room expr session)).steps ∧
      (Ending.left (evaluate stack room expr session)).steps ≤
        session.steps + (session.stepsLeft + 1) := by
  have meaning {room : Nat} (enough : session.stepsLeft + 1 < room) :
      EvaluatesTo expr session (evaluate (.withRoom room) room expr session) :=
    ⟨fun _ => evaluate_ne_stackExhausted wf.entered limited enough expr, room, rfl⟩
  have ends := meaning (Nat.lt_succ_self _)
  refine ⟨⟨_, ?_, ?_, EvaluatesTo.equalUnless wf.entered ends⟩, ?_⟩
  · intro room enough
    exact (meaning enough).unique wf.entered ends
  · intro failure left result
    have safe := evaluate_safe (.withRoom (session.stepsLeft + 2)) (session.stepsLeft + 2) wf held
    rw [Safe, result] at safe
    refine ⟨safe.2.2, ?_⟩
    rintro rfl
    exact ends.1 left result
  · intro stack room
    exact ⟨(Advancing.evaluate stack room expr session).steps,
      Frugal.steps_le limited stack room expr⟩

/-- A procedure that does nothing but call itself, with four steps left after its definition. -/
theorem evaluation_ends_within_limit_of_recursion :
    let session := (evaluateDatum .standard (.list
      [.atom "define", .list [.atom "f"], .list [.atom "f"]])).after (.start .standard 5)
    let call : Handle := ⟨.objects, 5, 0⟩
    session.WellFormed ∧ 0 < session.stepLimit ∧ session.store.Holds call ∧
      session.stepsLeft = 4 ∧ ∃ left, ∀ room, 5 < room →
        evaluate (.withRoom room) room call session = .error (.stepLimitExceeded 5) left := by
  intro session call
  have wf : session.WellFormed := (Session.Reachable.start .standard 5).datum _ _ |>.wellFormed
  have shape : 0 < session.stepLimit ∧ session.store.heap.owns call = true ∧
      session.stepsLeft = 4 ∧
      (evaluate (.withRoom 6) 6 call).failure? session = some (.stepLimitExceeded 5) := by
    simp only [session, evaluateDatum, embed_eq_embedded]
    decide +kernel
  obtain ⟨limited, owned, few, fails⟩ := shape
  have held := Store.holds_of_owns owned
  obtain ⟨⟨ending, ends, -⟩, -⟩ := evaluation_ends_within_limit wf limited held
  rw [few] at ends
  obtain ⟨left, result⟩ := failure?_eq_some_iff.mp fails
  have same : ending = .error (.stepLimitExceeded 5) left := (ends 6 (by decide)).symm.trans result
  exact ⟨wf, limited, held, few, left, fun room enough => (ends room enough).trans same⟩

end ScopedLisp
