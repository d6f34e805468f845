import ScopedLisp.Proofs.Ending
import ScopedLisp.Proofs.Eval.Relation
import ScopedLisp.Proofs.Scopes.Search

/-!
# The stack of active scopes

Every evaluation leaves the active scopes as it found them, whatever its outcome, except that an
exhausted host stack may strike while a scope is being entered or left. Then scopes that were
entered are still active, but none that was active before is lost, so cutting the stack back to
its former depth restores it.
-/

namespace ScopedLisp

open Routine

/-- Where the stack does not fail, the check passes. What it does elsewhere is left open. -/
def CallStack.Admits (stack : EvalStack) (check : Nat → Moment → Routine Unit) : Prop :=
  ∀ room moment session, stack.failsAt moment room session = false →
    check room moment session = .ok () session

theorem CallStack.admits_reach (stack : EvalStack) : stack.Admits stack.reach := by
  intro room moment session calm
  rw [reach_eq, calm]
  rfl

/-- Of an ending: the active scopes are `kept` again. If the host's stack failed early, more
scopes may be active above them. A failure is never that there are too few scopes. -/
def Restores (stack : EvalStack) (kept : List Handle) {α : Type} : Ending α → Prop
  | .ok _ left => left.scopes.active = kept
  | .error failure left =>
    (∀ reason, failure ≠ .scopeUnderflow reason) ∧ kept <:+ left.scopes.active ∧
      (left.scopes.active = kept ∨ failure = .stackExhausted ∧ stack.FailsEarly)

namespace Restores

variable {stack : EvalStack} {kept : List Handle} {α : Type} {failure : Failure} {left : Session}

theorem of_plain (same : left.scopes.active = kept) (plain : failure.isPlain = true) :
    Restores stack kept (.error failure left : Ending α) := by
  refine ⟨?_, same ▸ List.suffix_refl kept, .inl same⟩
  rintro reason rfl
  cases plain

theorem of_exhausted (early : stack.FailsEarly) (below : kept <:+ left.scopes.active) :
    Restores stack kept (.error .stackExhausted left : Ending α) :=
  ⟨nofun, below, .inr ⟨rfl, early⟩⟩

end Restores

/-! ### Entering and leaving -/

section Calls

variable {stack : EvalStack} {check : Nat → Moment → Routine Unit} {room : Nat}
  {calls calls' : Calls}

/-- Entering a scope under a given parent succeeds, or fails for want of that parent, or finds
the host's stack used up. -/
theorem enterScope_cases (checks : calls.reach = stack.reach room) (parent : Handle)
    (session : Session) :
    (∃ scope left, calls.enterScope parent session = .ok () left ∧
      left.scopes.active = scope :: session.scopes.active) ∨
    (∃ failure, calls.enterScope parent session = .error failure session ∧
      failure.isPlain = true) ∨
    (∃ left, calls.enterScope parent session = .error .stackExhausted left ∧
      stack.FailsEarly ∧ session.scopes.active <:+ left.scopes.active) := by
  unfold Calls.enterScope
  rw [checks, CallStack.reach_bind]
  split
  · next early => exact .inr (.inr ⟨session, rfl, ⟨_, _, _, early⟩, List.suffix_refl _⟩)
  · cases found : session.scopes.parentFor (some parent) with
    | error failure =>
      refine .inr (.inl ⟨failure, bind_error (makeFrame_error found), ?_⟩)
      exact Failure.isPlain_of_isOrdinary
        (session.scopes.parentFor_failsOrdinarily _ failure found)
    | ok link =>
      rw [bind_ok (makeFrame_ok found)]
      dsimp only
      rw [CallStack.reach_bind]
      split
      · next early => exact .inr (.inr ⟨_, rfl, ⟨_, _, _, early⟩, List.suffix_refl _⟩)
      · rw [bind_ok (rfl : activate _ _ = .ok () _), CallStack.reach_bind]
        split
        · next early => exact .inr (.inr ⟨_, rfl, ⟨_, _, _, early⟩, List.suffix_cons _ _⟩)
        · exact .inl ⟨_, _, rfl, rfl⟩

/-- Leaving a scope that is not the outermost one succeeds or finds the host's stack used up. -/
theorem exitScope_cases (checks : calls.reach = stack.reach room) {session : Session}
    {scope next : Handle} {outer : List Handle}
    (two : session.scopes.active = scope :: next :: outer) :
    (∃ left, calls.exitScope session = .ok () left ∧ left.scopes.active = next :: outer) ∨
    (∃ left, calls.exitScope session = .error .stackExhausted left ∧
      stack.FailsEarly ∧ next :: outer <:+ left.scopes.active) := by
  unfold Calls.exitScope
  rw [checks, CallStack.reach_bind]
  split
  · next early =>
    refine .inr ⟨session, rfl, ⟨_, _, _, early⟩, ?_⟩
    rw [two]
    exact List.suffix_cons _ _
  · rw [bind_ok (leave_eq two), CallStack.reach_bind]
    split
    · next early => exact .inr ⟨_, rfl, ⟨_, _, _, early⟩, List.suffix_refl _⟩
    · exact .inl ⟨_, rfl, rfl⟩

theorem reach_equalUnless (admits : stack.Admits check) (room : Nat) (moment : Moment)
    (session : Session) :
    EqualUnless .stackExhausted (stack.reach room moment session)
      (check room moment session) := by
  rw [CallStack.reach_eq]
  cases failing : stack.failsAt moment room session with
  | true => exact .inr ⟨session, rfl⟩
  | false => exact .inl (admits room moment session failing).symm

theorem enterScope_equalUnless (admits : stack.Admits check)
    (checks : calls.reach = stack.reach room) (checks' : calls'.reach = check room)
    (parent : Handle) (session : Session) :
    EqualUnless .stackExhausted (calls.enterScope parent session)
      (calls'.enterScope parent session) := by
  have passing := reach_equalUnless admits room
  rw [← checks, ← checks'] at passing
  refine (passing _ _).bind fun _ _ _ => (EqualUnless.refl _).bind fun _ _ _ => ?_
  refine (passing _ _).bind fun _ _ _ => (EqualUnless.refl _).bind fun _ _ _ => ?_
  exact (passing _ _).bind fun _ _ _ => .refl _

theorem exitScope_equalUnless (admits : stack.Admits check)
    (checks : calls.reach = stack.reach room) (checks' : calls'.reach = check room)
    (session : Session) :
    EqualUnless .stackExhausted (calls.exitScope session) (calls'.exitScope session) := by
  have passing := reach_equalUnless admits room
  rw [← checks, ← checks'] at passing
  refine (passing _ _).bind fun _ _ _ => (EqualUnless.refl _).bind fun _ _ _ => ?_
  exact (passing _ _).bind fun _ _ _ => .refl _

end Calls

/-! ### Running a body in a scope of its own -/

section Bodies

variable {stack : EvalStack} {check : Nat → Moment → Routine Unit} {room : Nat}
  {calls calls' : Calls} {α : Type} {body body' : Routine α} {mid : Session} {scope : Handle}
  {kept : List Handle}

/-- Once the scope is entered and the call reported, the body runs and the scope is left. -/
theorem within_eq {parent : Handle} {session : Session}
    (enters : calls.enterScope parent session = .ok () mid) :
    calls.within parent body session =
      ensuring body calls.exitScope
        { mid with journal := mid.journal.push (.procedureApplied mid.scopes.depth) } := by
  rw [Calls.within, bind_ok enters]
  rfl

/-- Scopes that lie above an entered one: the topmost can be left, and what lay below the entered
one stays. -/
theorem leaving_above {active : List Handle} (some_kept : kept ≠ [])
    (above : scope :: kept <:+ active) :
    ∃ first next outer, active = first :: next :: outer ∧ kept <:+ next :: outer ∧
      (active = scope :: kept → next :: outer = kept) := by
  obtain ⟨top, rfl⟩ := above
  cases top with
  | nil =>
    obtain ⟨next, outer, rfl⟩ := List.exists_cons_of_ne_nil some_kept
    exact ⟨scope, next, outer, rfl, List.suffix_refl _, fun _ => rfl⟩
  | cons first top =>
    obtain ⟨next, outer, shape⟩ :=
      List.exists_cons_of_ne_nil
        (List.append_ne_nil_of_right_ne_nil top (List.cons_ne_nil scope kept))
    refine ⟨first, next, outer, by rw [List.cons_append, shape], ?_, ?_⟩
    · rw [← shape]
      exact (List.suffix_cons scope kept).trans (List.suffix_append top _)
    · intro same
      have short := congrArg List.length same
      simp only [List.length_append, List.length_cons] at short
      omega

/-- Leaving the scope after the body restores what was active below it. What the body fails with
is passed on, unless leaving finds the host's stack used up. -/
theorem ensuring_restores (checks : calls.reach = stack.reach room) (some_kept : kept ≠ [])
    (inner : Restores stack (scope :: kept) (body mid)) :
    Restores stack kept (ensuring body calls.exitScope mid) := by
  cases result : body mid with
  | ok value left =>
    rw [result] at inner
    obtain ⟨next, outer, rfl⟩ := List.exists_cons_of_ne_nil some_kept
    rw [ensuring_ok result]
    rcases exitScope_cases checks inner with ⟨final, exits, same⟩ | ⟨final, fails, early, below⟩
    · rw [bind_ok exits]
      exact same
    · rw [bind_error fails]
      exact .of_exhausted early below
  | error failure left =>
    rw [result] at inner
    obtain ⟨enough, above, cause⟩ := inner
    obtain ⟨first, next, outer, shape, below, exactly⟩ := leaving_above some_kept above
    rw [ensuring_error result]
    rcases exitScope_cases checks shape with
      ⟨final, exits, same⟩ | ⟨final, fails, early, final_below⟩
    · rw [bind_ok exits]
      refine ⟨enough, same ▸ below, ?_⟩
      rcases cause with unchanged | exhausted
      · exact .inl (same.trans (exactly unchanged))
      · exact .inr exhausted
    · rw [bind_error fails]
      exact .of_exhausted early (below.trans final_below)

/-- An exhausted body leaves the whole call exhausted: its failure is not replaced by another. -/
theorem ensuring_equalUnless (admits : stack.Admits check)
    (checks : calls.reach = stack.reach room) (checks' : calls'.reach = check room)
    (some_kept : kept ≠ [])
    (inner : Restores stack (scope :: kept) (body mid))
    (ends : EqualUnless .stackExhausted (body mid) (body' mid)) :
    EqualUnless .stackExhausted (ensuring body calls.exitScope mid)
      (ensuring body' calls'.exitScope mid) := by
  have exits := exitScope_equalUnless admits checks checks'
  rcases ends with same | ⟨left, exhausted⟩
  · cases result : body mid with
    | ok value left =>
      rw [ensuring_ok result, ensuring_ok (same ▸ result)]
      exact (exits left).bind fun _ _ _ => .refl _
    | error failure left =>
      rw [ensuring_error result, ensuring_error (same ▸ result)]
      exact (exits left).bind fun _ _ _ => .refl _
  · rw [exhausted] at inner
    obtain ⟨first, next, outer, shape, _, _⟩ := leaving_above some_kept inner.2.1
    rw [ensuring_error exhausted]
    rcases exitScope_cases checks shape with ⟨final, done, _⟩ | ⟨final, fails, _, _⟩
    · exact .inr ⟨final, bind_ok done⟩
    · exact .inr ⟨final, bind_error fails⟩

end Bodies

/-! ### Evaluation -/

/-- Wherever some scope is active, the first routine restores the active scopes, and it ends as
the second one does unless the host's stack was exhausted. -/
def KeepsScopes (stack : EvalStack) (α : Type) (routine routine' : Routine α) : Prop :=
  ∀ session, session.scopes.active ≠ [] →
    Restores stack session.scopes.active (routine session) ∧
      EqualUnless .stackExhausted (routine session) (routine' session)

namespace KeepsScopes

variable {stack : EvalStack} {check : Nat → Moment → Routine Unit} {α β : Type}

theorem of_restores {routine : Routine α}
    (each : ∀ session, session.scopes.active ≠ [] →
      Restores stack session.scopes.active (routine session)) :
    KeepsScopes stack α routine routine :=
  fun session entered => ⟨each session entered, .refl _⟩

theorem bind {first first' : Routine α} {next next' : α → Routine β}
    (head : KeepsScopes stack α first first')
    (tail : ∀ value, KeepsScopes stack β (next value) (next' value)) :
    KeepsScopes stack β (first >>= next) (first' >>= next') := by
  intro session entered
  obtain ⟨restores, ends⟩ := head session entered
  have following : ∀ value mid, first session = .ok value mid →
      mid.scopes.active = session.scopes.active := by
    intro value mid result
    rw [result] at restores
    exact restores
  constructor
  · cases result : first session with
    | ok value mid =>
      have same := following value mid result
      rw [bind_ok result, ← same]
      exact (tail value mid (same ▸ entered)).1
    | error failure mid =>
      rw [bind_error result]
      rw [result] at restores
      exact restores
  · apply ends.bind
    intro value mid result
    exact (tail value mid (following value mid result ▸ entered)).2

theorem respectful (stack : EvalStack) : Respectful (KeepsScopes stack) where
  pure value := of_restores fun session _ => rfl
  bind head tail := head.bind tail
  inspect := by
    intro α read plain
    apply of_restores
    intro session _
    cases found : read session.store session.vocabulary with
    | ok value =>
      rw [inspect_ok found]
      rfl
    | error failure =>
      rw [inspect_error found]
      exact .of_plain rfl (plain _ _ failure found)
  allocate record := of_restores fun session _ => rfl
  currentScope := by
    apply of_restores
    intro session entered
    obtain ⟨scope, current⟩ := Scopes.current_eq entered
    rw [currentScope_ok current]
    rfl
  lookupSymbol symbol := by
    apply of_restores
    intro session entered
    have plain := Scopes.lookup_failsWithin (.plainly entered)
      (session.store.symbols.name_failsOrdinarily symbol)
    cases found : session.scopes.lookup session.store.symbols.name symbol with
    | ok value =>
      rw [lookupSymbol_ok found]
      rfl
    | error failure =>
      rw [lookupSymbol_error found]
      exact .of_plain rfl (plain failure found)
  bindSymbol symbol value := by
    apply of_restores
    intro session entered
    cases found : session.scopes.currentPlace with
    | ok place =>
      rw [bindSymbol_ok found]
      rfl
    | error failure =>
      rw [bindSymbol_error found]
      exact .of_plain rfl (Scopes.currentPlace_failsWithin (.plainly entered) failure found)
  assignSymbol symbol value := by
    apply of_restores
    intro session entered
    have plain := Scopes.bindingPlace_failsWithin (.plainly entered)
      (session.store.symbols.name_failsOrdinarily symbol)
    cases found : session.scopes.bindingPlace session.store.symbols.name symbol with
    | ok place =>
      rw [assignSymbol_ok found]
      rfl
    | error failure =>
      rw [assignSymbol_error found]
      exact .of_plain rfl (plain failure found)

theorem enforceLimit (stack : EvalStack) :
    KeepsScopes stack Unit Routine.enforceLimit Routine.enforceLimit := by
  apply of_restores
  intro session _
  rw [enforceLimit_eq]
  split
  · exact ⟨nofun, List.suffix_refl _, .inl rfl⟩
  · rfl

theorem reach (admits : stack.Admits check) (room : Nat) (moment : Moment) :
    KeepsScopes stack Unit (stack.reach room moment) (check room moment) := by
  intro session _
  refine ⟨?_, reach_equalUnless admits room moment session⟩
  rw [CallStack.reach_eq]
  split
  · next early => exact .of_exhausted ⟨_, _, _, early⟩ (List.suffix_refl _)
  · rfl

/-- Counting a step: the stack is checked between the count and the comparison with the limit. -/
theorem tick {room : Nat} {calls calls' : Calls} (admits : stack.Admits check)
    (checks : calls.reach = stack.reach room) (checks' : calls'.reach = check room) :
    KeepsScopes stack Unit calls.tick calls'.tick := by
  have counting : KeepsScopes stack Unit countStep countStep := of_restores fun _ _ => rfl
  have checking := KeepsScopes.reach admits room .counted
  rw [← checks, ← checks'] at checking
  exact counting.bind fun _ => checking.bind fun _ => enforceLimit stack

/-- A call of a procedure: entering a scope, running the body, leaving the scope. -/
theorem within {room : Nat} {calls calls' : Calls} (admits : stack.Admits check)
    (checks : calls.reach = stack.reach room) (checks' : calls'.reach = check room)
    (parent : Handle) {body body' : Routine α} (inner : KeepsScopes stack α body body') :
    KeepsScopes stack α (calls.within parent body) (calls'.within parent body') := by
  intro session entered
  have opening := enterScope_equalUnless admits checks checks' parent session
  rcases enterScope_cases checks parent session with
    ⟨scope, mid, enters, active⟩ | ⟨failure, fails, plain⟩ | ⟨left, fails, early, below⟩
  · rcases opening with same | ⟨left, exhausted⟩
    · have running := inner
        { mid with journal := mid.journal.push (.procedureApplied mid.scopes.depth) }
        (active ▸ List.cons_ne_nil scope _)
      simp only [active] at running
      rw [within_eq enters, within_eq (same ▸ enters)]
      exact ⟨ensuring_restores checks entered running.1,
        ensuring_equalUnless admits checks checks' entered running.1 running.2⟩
    · rw [exhausted] at enters
      cases enters
  · refine ⟨?_, ?_⟩
    · rw [Calls.within, bind_error fails]
      exact .of_plain rfl plain
    · exact opening.bind fun _ _ enters => by rw [fails] at enters; cases enters
  · rw [Calls.within, bind_error fails]
    exact ⟨.of_exhausted early below, .inr ⟨left, rfl⟩⟩

/-- Evaluation keeps the active scopes, and ends in the same way whatever is done where the
host's stack is exhausted, unless it fails with the exhaustion. -/
theorem evalRelation (admits : stack.Admits check) (exhausted : Handle → Routine Handle) :
    EvalRelation stack check exhausted (KeepsScopes stack) where
  toRespectful := respectful stack
  reach := reach admits
  tick _ _ _ checks checks' := tick admits checks checks'
  exhausted := by
    intro expr session _
    exact ⟨⟨nofun, List.suffix_refl _, .inl rfl⟩, .inr ⟨session, rfl⟩⟩
  within := by
    intro room calls calls' checks checks' α parent body body' inner
    exact within admits checks checks' parent inner

/-- The nested calls of an evaluation keep the active scopes. -/
theorem calls (stack : EvalStack) (room : Nat) :
    RelatedCalls (KeepsScopes stack) (stack.callsWithin room) (stack.callsWithin room) :=
  (evalRelation stack.admits_reach fun _ => throw Failure.stackExhausted).calls room

end KeepsScopes

end ScopedLisp
