import ScopedLisp.Proofs.Eval.Growth
import ScopedLisp.Proofs.Eval.ScopeStack

/-!
# Evaluations under a limit

One evaluation is run with and without a limit on its steps. Up to the first step beyond the limit
both runs do the same. At that step the limited run fails, and on its way out it leaves the scopes
that it has entered and does nothing else.

The stack fails only where its room is used up. For each nested evaluation that there was room for
a step has been counted by then.
-/

namespace ScopedLisp

open Routine

/-- The session under another limit, where zero sets none. -/
def Session.limited (session : Session) (limit : Nat) : Session :=
  { session with stepLimit := limit }

/-- The ending, with the session that is left under another limit. -/
def Ending.limited {α : Type} (limit : Nat) : Ending α → Ending α := Ending.onLeft (·.limited limit)

/-- How a run under a limit ends where the run without a limit ends as `free`. It ends in the same
way if no more steps are taken than are allowed. Otherwise it fails at the first step beyond the
limit, and what is then in the store is part of what `free` leaves. -/
inductive CutOff (limit : Nat) {α : Type} (bounded free : Ending α) : Prop where
  | within (enough : free.left.steps ≤ limit) (same : bounded = free.limited limit)
  | beyond {left : Session} (cut : bounded = .error (.stepLimitExceeded limit) left)
      (steps : left.steps = limit + 1) (further : limit < free.left.steps)
      (store : left.store.Extends free.left.store)

/-- What is done afterwards in both runs does not matter, if it takes no step and leaves the store
and the limit alone. -/
theorem CutOff.onLeft {limit : Nat} {α : Type} {bounded free : Ending α}
    (cut : CutOff limit bounded free) {change : Session → Session}
    (steps : ∀ session, (change session).steps = session.steps)
    (store : ∀ session, (change session).store = session.store)
    (blind : ∀ session, change (session.limited limit) = (change session).limited limit) :
    CutOff limit (bounded.onLeft change) (free.onLeft change) := by
  cases cut with
  | within enough same =>
    refine .within ?_ ?_
    · rw [Ending.left_onLeft, steps]
      exact enough
    · rw [same]
      cases free with
      | ok value left => exact congrArg (EStateM.Result.ok value) (blind left)
      | error failure left => exact congrArg (EStateM.Result.error failure) (blind left)
  | @beyond left cut counted further kept =>
    refine .beyond (congrArg (Ending.onLeft change) cut) ?_ ?_ ?_
    · rw [steps]
      exact counted
    · rw [Ending.left_onLeft, steps]
      exact further
    · rw [Ending.left_onLeft, store, store]
      exact kept

/-- The session once its current scope is left. -/
def Session.scopeLeft (session : Session) : Session :=
  match session.scopes.active with
  | [] => session
  | scope :: outer =>
    { session with
      scopes := { session.scopes with active := outer }
      journal := session.journal.push (.scopeLeft scope.index outer.length) }

theorem Session.scopeLeft_steps (session : Session) : session.scopeLeft.steps = session.steps := by
  unfold scopeLeft
  split <;> rfl

theorem Session.scopeLeft_store (session : Session) : session.scopeLeft.store = session.store := by
  unfold scopeLeft
  split <;> rfl

/-- The session once the call is reported whose scope was entered last. -/
def Session.applied (session : Session) : Session :=
  { session with journal := session.journal.push (.procedureApplied session.scopes.depth) }

/-- A run that is cut off is still so after leaving a scope. -/
theorem CutOff.scopeLeft {limit : Nat} {α : Type} {bounded free : Ending α}
    (cut : CutOff limit bounded free) :
    CutOff limit (bounded.onLeft Session.scopeLeft) (free.onLeft Session.scopeLeft) := by
  apply cut.onLeft Session.scopeLeft_steps Session.scopeLeft_store
  intro session
  simp only [Session.scopeLeft, Session.limited]
  split <;> rfl

/-! ### Routines that count no step -/

/-- From this session the routine takes no step, does not find the host's stack used up, and does
the same under the limit. -/
structure Stepless (limit : Nat) (session : Session) {α : Type} (routine : Routine α) : Prop where
  steps : (Ending.left (routine session)).steps = session.steps
  roomy : ∀ left, routine session ≠ .error .stackExhausted left
  blind : routine (session.limited limit) = Ending.limited limit (routine session)

namespace Stepless

variable {limit : Nat} {session : Session} {α β : Type}

/-- Two routines that count no step count none together. -/
theorem bind {first : Routine α} {next : α → Routine β} (head : Stepless limit session first)
    (tail : ∀ value mid, first session = .ok value mid → Stepless limit mid (next value)) :
    Stepless limit session (first >>= next) := by
  obtain ⟨steps, roomy, blind⟩ := head
  cases result : first session with
  | ok value mid =>
    rw [result] at steps blind
    obtain ⟨later, enough, alike⟩ := tail value mid result
    refine ⟨?_, ?_, ?_⟩
    · rw [bind_ok result]
      exact later.trans steps
    · rw [bind_ok result]
      exact enough
    · rw [bind_ok result, bind_ok blind]
      exact alike
  | error failure mid =>
    rw [result] at steps roomy blind
    refine ⟨?_, ?_, ?_⟩
    · rw [bind_error result]
      exact steps
    · rw [bind_error result]
      intro left same
      cases same
      exact roomy mid rfl
    · rw [bind_error result, bind_error blind]
      rfl

/-- A routine that succeeds without a step, under the limit as without it. -/
theorem of_ok {routine : Routine α} {value : α} {left : Session}
    (result : routine session = .ok value left) (steps : left.steps = session.steps)
    (blind : routine (session.limited limit) = .ok value (left.limited limit)) :
    Stepless limit session routine := by
  refine ⟨?_, ?_, ?_⟩
  · rw [result]
    exact steps
  · rw [result]
    exact nofun
  · rw [result]
    exact blind

/-- A routine without a value that neither fails nor looks at the limit. -/
theorem of_change {routine : Routine Unit} {change : Session → Session}
    (runs : ∀ session, routine session = .ok () (change session))
    (steps : (change session).steps = session.steps)
    (blind : change (session.limited limit) = (change session).limited limit) :
    Stepless limit session routine := by
  apply of_ok (runs session) steps
  rw [runs, blind]

theorem of_error {routine : Routine α} {failure : Failure}
    (result : routine session = .error failure session) (plain : failure.isPlain = true)
    (blind : routine (session.limited limit) = .error failure (session.limited limit)) :
    Stepless limit session routine := by
  refine ⟨?_, ?_, ?_⟩
  · rw [result]
    rfl
  · rw [result]
    rintro left ⟨⟩
    cases plain
  · rw [result]
    exact blind

theorem inspect {read : Store → Vocabulary → Except Failure α}
    (plain : ∀ store words, FailsPlainly (read store words)) :
    Stepless limit session (inspect read) := by
  cases found : read session.store session.vocabulary with
  | ok value => exact of_ok (inspect_ok found) rfl (inspect_ok found)
  | error failure =>
    exact of_error (inspect_error found) (plain _ _ failure found)
      (inspect_error found)

section Scopes

variable (entered : session.scopes.active ≠ [])
include entered

theorem currentScope : Stepless limit session currentScope := by
  obtain ⟨scope, found⟩ := Scopes.current_eq entered
  exact of_ok (currentScope_ok found) rfl (currentScope_ok found)

/-- A lookup counts no step and does not look at the limit. -/
theorem lookupSymbol (symbol : Handle) : Stepless limit session (lookupSymbol symbol) := by
  have plain := Scopes.lookup_failsWithin (.plainly entered)
    (session.store.symbols.name_failsOrdinarily symbol)
  cases found : session.scopes.lookup session.store.symbols.name symbol with
  | ok value =>
    exact of_ok (lookupSymbol_ok found) rfl
      (lookupSymbol_ok found)
  | error failure =>
    exact of_error (lookupSymbol_error found) (plain failure found)
      (lookupSymbol_error found)

theorem bindSymbol (symbol value : Handle) : Stepless limit session (bindSymbol symbol value) := by
  have plain := Scopes.currentPlace_failsWithin (.plainly entered)
  cases found : session.scopes.currentPlace with
  | ok place =>
    exact of_ok (bindSymbol_ok found) rfl (bindSymbol_ok found)
  | error failure =>
    exact of_error (bindSymbol_error found) (plain failure found)
      (bindSymbol_error found)

/-- An assignment counts no step and does not look at the limit. -/
theorem assignSymbol (symbol value : Handle) :
    Stepless limit session (assignSymbol symbol value) := by
  have plain := Scopes.bindingPlace_failsWithin (.plainly entered)
    (session.store.symbols.name_failsOrdinarily symbol)
  cases found : session.scopes.bindingPlace session.store.symbols.name symbol with
  | ok place =>
    exact of_ok (assignSymbol_ok found) rfl
      (assignSymbol_ok found)
  | error failure =>
    exact of_error (assignSymbol_error found) (plain failure found)
      (assignSymbol_error found)

end Scopes

/-! The stack below fails only where its room is used up, so no check fails. -/

section Calls

variable {total room : Nat} {calls : Calls}
  (checks : calls.reach = (CallStack.withRoom total : EvalStack).reach room)
include checks

theorem reach (moment : Moment) : Stepless limit session (calls.reach moment) := by
  rw [checks]
  exact of_change (fun _ => rfl) rfl rfl

/-- Entering a scope counts no step, so a limit is never met at it. -/
theorem enterScope (parent : Handle) : Stepless limit session (calls.enterScope parent) := by
  have framing (session : Session) : Stepless limit session (makeFrame (some parent)) := by
    cases found : session.scopes.parentFor (some parent) with
    | ok link =>
      exact of_ok (makeFrame_ok found) rfl (makeFrame_ok found)
    | error failure =>
      have ordinary := session.scopes.parentFor_failsOrdinarily _ failure found
      exact of_error (makeFrame_error found) (Failure.isPlain_of_isOrdinary ordinary)
        (makeFrame_error found)
  refine (reach checks _).bind fun _ _ _ => (framing _).bind fun made _ _ => ?_
  refine (reach checks _).bind fun _ _ _ => ?_
  refine (of_change (fun _ => rfl) rfl rfl).bind fun _ _ _ => ?_
  exact (reach checks _).bind fun _ _ _ => of_change (fun _ => rfl) rfl rfl

end Calls

end Stepless

/-! ### Runs with and without a limit -/

/-- Of a routine on a stack with room for `room` more calls, which fails only where its room is
used up: the routine keeps the active scopes and advances; where the stack is used up, it has taken
`room` steps or more; and a limit cuts it off. -/
structure Metered (total room limit : Nat) (α : Type) (routine _other : Routine α) : Prop where
  keeps : KeepsScopes (.withRoom total) α routine routine
  advances : Advancing α routine routine
  exhausted : ∀ (session : Session) left, session.scopes.active ≠ [] →
    routine session = .error .stackExhausted left → session.steps + room ≤ left.steps
  cutOff : ∀ session : Session, session.scopes.active ≠ [] → session.stepLimit = 0 →
    session.steps ≤ limit → CutOff limit (routine (session.limited limit)) (routine session)

/-- A stack with a given room fails where it is exceeded and not before. -/
theorem CallStack.not_failsEarly (total : Nat) :
    ¬(CallStack.withRoom total : EvalStack).FailsEarly := by
  rintro ⟨moment, room, session, early⟩
  cases early

/-- The active scopes are those of before, whatever the outcome: the stack does not fail early. -/
theorem KeepsScopes.active_left {total : Nat} {α : Type} {routine other : Routine α}
    (keeps : KeepsScopes (.withRoom total) α routine other) {session : Session}
    (entered : session.scopes.active ≠ []) :
    (Ending.left (routine session)).scopes.active = session.scopes.active := by
  have restored := (keeps session entered).1
  cases result : routine session with
  | ok value left =>
    rw [result] at restored
    exact restored
  | error failure left =>
    rw [result] at restored
    obtain ⟨-, -, same | ⟨-, early⟩⟩ := restored
    · exact same
    · exact absurd early (CallStack.not_failsEarly total)

namespace Metered

variable {total room limit : Nat} {α β : Type}

/-- A routine that counts no step is metered. -/
theorem of_stepless {routine : Routine α} (keeps : KeepsScopes (.withRoom total) α routine routine)
    (advances : Advancing α routine routine)
    (each : ∀ session, session.scopes.active ≠ [] → Stepless limit session routine) :
    Metered total room limit α routine routine := by
  refine ⟨keeps, advances, ?_, ?_⟩
  · intro session left entered result
    exact absurd result ((each session entered).roomy left)
  · intro session entered _ enough
    obtain ⟨steps, -, blind⟩ := each session entered
    exact .within (steps ▸ enough) blind

/-- A metered routine that succeeds leaves a scope entered. -/
theorem entered_of_ok {routine other : Routine α}
    (metered : Metered total room limit α routine other) {session mid : Session} {value : α}
    (entered : session.scopes.active ≠ []) (result : routine session = .ok value mid) :
    mid.scopes.active ≠ [] := by
  have same := metered.keeps.active_left entered
  rw [result] at same
  exact same ▸ entered

/-- Two metered routines are metered one after the other. Where the limit cuts off the first, the
second does not run. -/
theorem bind {first first' : Routine α} {next next' : α → Routine β}
    (head : Metered total room limit α first first')
    (tail : ∀ value, Metered total room limit β (next value) (next' value)) :
    Metered total room limit β (first >>= next) (first' >>= next') := by
  refine ⟨head.keeps.bind fun value => (tail value).keeps,
    head.advances.bind fun value => (tail value).advances, ?_, ?_⟩
  · intro session left entered ends
    have before := head.advances session
    cases result : first session with
    | ok value mid =>
      rw [bind_ok result] at ends
      rw [result] at before
      have taken := (tail value).exhausted mid left
        (head.entered_of_ok entered result) ends
      have counted : session.steps ≤ mid.steps := before.steps
      omega
    | error failure mid =>
      rw [bind_error result] at ends
      cases ends
      exact head.exhausted session _ entered result
  · intro session entered unlimited enough
    have before := head.advances session
    cases result : first session with
    | ok value mid =>
      have cut := head.cutOff session entered unlimited enough
      rw [result] at cut before
      rw [bind_ok result]
      cases cut with
      | within still same =>
        rw [bind_ok same]
        exact (tail value).cutOff mid (head.entered_of_ok entered result)
          (before.stepLimit.trans unlimited) still
      | beyond stopped steps further store =>
        -- the first routine was cut off already, and the run without a limit goes on from there
        have later := (tail value).advances mid
        rw [bind_error stopped]
        exact .beyond rfl steps (Nat.lt_of_lt_of_le further later.steps) (store.trans later.store)
    | error failure mid =>
      have cut := head.cutOff session entered unlimited enough
      rw [result] at cut
      rw [bind_error result]
      cases cut with
      | within still same =>
        rw [bind_error same]
        exact .within still rfl
      | beyond stopped steps further store =>
        rw [bind_error stopped]
        exact .beyond rfl steps further store

/-- The operations on bindings and objects are metered, for they count no step. -/
theorem respectful (total room limit : Nat) : Respectful (Metered total room limit) where
  pure value := of_stepless ((KeepsScopes.respectful _).pure value)
    (Advancing.respectful.pure value) fun _ _ => .of_ok rfl rfl rfl
  bind := bind
  inspect plain := of_stepless ((KeepsScopes.respectful _).inspect plain)
    (Advancing.respectful.inspect plain) fun _ _ => .inspect plain
  allocate record := of_stepless ((KeepsScopes.respectful _).allocate record)
    (Advancing.respectful.allocate record) fun _ _ => .of_ok rfl rfl rfl
  currentScope := of_stepless (KeepsScopes.respectful _).currentScope
    Advancing.respectful.currentScope fun _ => .currentScope
  lookupSymbol symbol := of_stepless ((KeepsScopes.respectful _).lookupSymbol symbol)
    (Advancing.respectful.lookupSymbol symbol) fun _ entered => .lookupSymbol entered symbol
  bindSymbol symbol value := of_stepless ((KeepsScopes.respectful _).bindSymbol symbol value)
    (Advancing.respectful.bindSymbol symbol value) fun _ entered => .bindSymbol entered symbol value
  assignSymbol symbol value := of_stepless ((KeepsScopes.respectful _).assignSymbol symbol value)
    (Advancing.respectful.assignSymbol symbol value)
    fun _ entered => .assignSymbol entered symbol value

section Calls

variable {calls : Calls} (checks : calls.reach = (CallStack.withRoom total : EvalStack).reach room)
include checks

theorem tick_eq (session : Session) :
    calls.tick session = enforceLimit { session with steps := session.steps + 1 } := by
  rw [Calls.tick, checks, bind_ok (rfl : countStep session = .ok () _)]
  exact bind_ok rfl

/-- Counting a step is where a limited run is cut off. -/
theorem tick (positive : 0 < limit) : Metered total room limit Unit calls.tick calls.tick := by
  have admits := (CallStack.withRoom total : EvalStack).admits_reach
  refine ⟨.tick admits checks checks, .tick checks, ?_, ?_⟩
  · intro session left _ ends
    rw [tick_eq checks, enforceLimit_eq] at ends
    split at ends <;> cases ends
  · intro session _ unlimited enough
    rw [tick_eq checks, tick_eq checks, enforceLimit_eq, enforceLimit_eq]
    have free : ¬(session.stepLimit ≠ 0 ∧ session.stepLimit < (session.steps + 1 : Nat)) :=
      fun both => both.1 unlimited
    rw [if_neg free]
    by_cases inside : session.steps + 1 ≤ limit
    · have allowed : ¬((limit : Int) ≠ 0 ∧ (limit : Int) < (session.steps + 1 : Nat)) := by omega
      refine .within inside ?_
      exact if_neg allowed
    · have exceeded : (limit : Int) ≠ 0 ∧ (limit : Int) < (session.steps + 1 : Nat) := by
        omega
      refine .beyond (if_pos exceeded) ?_ ?_ (.refl _)
      · simp only [Session.limited]
        omega
      · simp only [Ending.left]
        omega

/-- A body that keeps the scope it runs in ends in that scope as it does alone, and the scope is
left. -/
theorem ensuring_exitScope {body : Routine α} {session : Session} {scope : Handle}
    {kept : List Handle} (some_kept : kept ≠ [])
    (above : (Ending.left (body session)).scopes.active = scope :: kept) :
    ensuring body calls.exitScope session = Ending.onLeft Session.scopeLeft (body session) := by
  obtain ⟨next, outer, rfl⟩ := List.exists_cons_of_ne_nil some_kept
  have exits (left : Session) (two : left.scopes.active = scope :: next :: outer) :
      calls.exitScope left = .ok () left.scopeLeft := by
    rw [Calls.exitScope, checks, bind_ok (CallStack.reach_eq _ _ _ left), bind_ok (leave_eq two),
      bind_ok (CallStack.reach_eq _ _ _ _)]
    simp only [Session.scopeLeft, two]
    rfl
  cases result : body session with
  | ok value left =>
    rw [result] at above
    rw [ensuring_ok result, bind_ok (exits left above)]
    rfl
  | error failure left =>
    rw [result] at above
    rw [ensuring_error result, bind_ok (exits left above)]
    rfl

theorem within_ok {parent scope : Handle} {mid : Session} {body body' : Routine α}
    (inner : Metered total room limit α body body') (session : Session)
    (entered : session.scopes.active ≠ [])
    (enters : calls.enterScope parent session = .ok () mid)
    (active : mid.scopes.active = scope :: session.scopes.active) :
    calls.within parent body session = Ending.onLeft Session.scopeLeft (body mid.applied) := by
  have inside : mid.applied.scopes.active ≠ [] := active ▸ List.cons_ne_nil scope _
  rw [within_eq enters]
  exact ensuring_exitScope checks entered ((inner.keeps.active_left inside).trans active)

/-- The body of a procedure call is cut off where it is cut off alone. -/
theorem within (parent : Handle) {body body' : Routine α}
    (inner : Metered total room limit α body body') :
    Metered total room limit α (calls.within parent body) (calls.within parent body') := by
  have admits := (CallStack.withRoom total : EvalStack).admits_reach
  refine ⟨.within admits checks checks parent inner.keeps, .within checks parent inner.advances,
    ?_, ?_⟩
  · intro session left entered ends
    have opening : Stepless limit session (calls.enterScope parent) := .enterScope checks parent
    obtain ⟨steps, -, -⟩ := opening
    rcases enterScope_cases checks parent session with
      ⟨scope, mid, enters, active⟩ | ⟨failure, fails, plain⟩ | ⟨_, _, early, _⟩
    · rw [enters] at steps
      rw [within_ok checks inner session entered enters active] at ends
      cases result : body mid.applied with
      | ok value last =>
        rw [result] at ends
        cases ends
      | error failure last =>
        rw [result] at ends
        cases ends
        have taken := inner.exhausted mid.applied last (active ▸ List.cons_ne_nil scope _) result
        rw [Session.scopeLeft_steps]
        exact steps ▸ taken
    · rw [Calls.within, bind_error fails] at ends
      cases ends
      cases plain
    · exact absurd early (CallStack.not_failsEarly total)
  · intro session entered unlimited enough
    have opening : Stepless limit session (calls.enterScope parent) := .enterScope checks parent
    obtain ⟨steps, -, blind⟩ := opening
    have advances := Advancing.enterScope checks parent session
    rcases enterScope_cases checks parent session with
      ⟨scope, mid, enters, active⟩ | ⟨failure, fails, plain⟩ | ⟨_, _, early, _⟩
    · rw [enters] at steps blind advances
      have running := inner.cutOff mid.applied (active ▸ List.cons_ne_nil scope _)
        (advances.stepLimit.trans unlimited) (steps ▸ enough)
      rw [within_ok checks inner session entered enters active,
        within_ok checks inner (session.limited limit) entered blind active]
      exact running.scopeLeft
    · rw [fails] at blind
      rw [Calls.within, bind_error fails, bind_error blind]
      exact .within enough rfl
    · exact absurd early (CallStack.not_failsEarly total)

/-- Reaching a level of nesting counts no step. -/
theorem reach (moment : Moment) :
    Metered total room limit Unit (calls.reach moment) (calls.reach moment) := by
  have admits := (CallStack.withRoom total : EvalStack).admits_reach
  have keeps := KeepsScopes.reach admits room moment
  have advances := Advancing.reach (.withRoom total) room moment
  rw [← checks] at keeps advances
  exact of_stepless keeps advances fun _ _ => .reach checks moment

end Calls

/-- A limit cuts an evaluation off. An evaluation that uses up the stack has counted a step for
each of the nested evaluations that there was room for. -/
theorem evaluate (total room : Nat) (positive : 0 < limit) (expr : Handle) :
    Metered total room limit Handle (evaluate (.withRoom total) room expr)
      (evaluate (.withRoom total) room expr) := by
  induction room generalizing expr with
  | zero =>
    have admits := (CallStack.withRoom total : EvalStack).admits_reach
    refine ⟨(KeepsScopes.calls _ 0).evaluate expr, Advancing.evaluate _ 0 expr, ?_, ?_⟩
    · rintro session _ _ ⟨⟩
      exact Nat.le_refl _
    · intro session _ _ enough
      exact .within enough rfl
  | succ room ih =>
    let calls := (CallStack.withRoom total : EvalStack).callsWithin room
    have checks : calls.reach = (CallStack.withRoom total : EvalStack).reach room := rfl
    have related : RelatedCalls (Metered total room limit) calls calls :=
      ⟨ih, reach checks, tick checks positive, within checks⟩
    obtain ⟨keeps, advances, -, cutOff⟩ := related.step (respectful total room limit).governed expr
    refine ⟨keeps, advances, ?_, cutOff⟩
    intro session left entered ends
    -- the step is counted before anything else, so all that is left to take lies behind it
    have ticked := tick_eq checks session
    rw [enforceLimit_eq] at ticked
    have passed : calls.reach .evaluating session = .ok () session := rfl
    change calls.step expr session = _ at ends
    rw [Calls.step, bind_ok passed] at ends
    split at ticked
    · rw [bind_error ticked] at ends
      cases ends
    · rw [bind_ok ticked] at ends
      have taken := (related.dispatch (respectful total room limit).governed expr).exhausted
        { session with steps := session.steps + 1 } left entered ends
      simp only at taken
      omega

end Metered

end ScopedLisp
