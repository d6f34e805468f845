import ScopedLisp.Proofs.Eval.ScopeStack

/-!
# Lexical scoping

A procedure sees the scopes it was made in and never those of its callers. Two sessions that
differ in nothing but the active scopes (and the journal, which tells how many there are) are run
side by side: as long as the same scope is current in both, an evaluation does the same in both,
and a procedure call does the same whatever scopes are current, since it enters one of its own.
-/

namespace ScopedLisp

open Routine

/-- The sessions differ in their active scopes and journals only. -/
structure SameButCallers (session session' : Session) : Prop where
  store : session.store = session'.store
  owner : session.scopes.owner = session'.scopes.owner
  frames : session.scopes.frames = session'.scopes.frames
  vocabulary : session.vocabulary = session'.vocabulary
  stepLimit : session.stepLimit = session'.stepLimit
  steps : session.steps = session'.steps

/-- The session with other active scopes and another journal. -/
def Session.withCallers (session : Session) (active : List Handle) (journal : Array Event) :
    Session :=
  { session with scopes := { session.scopes with active }, journal }

theorem sameButCallers_withCallers (session : Session) (active : List Handle)
    (journal : Array Event) : SameButCallers session (session.withCallers active journal) :=
  ⟨rfl, rfl, rfl, rfl, rfl, rfl⟩

/-- A session that differs in its callers and its journal only is the other one with these put
in. -/
theorem SameButCallers.eq_withCallers {session session' : Session}
    (same : SameButCallers session session') :
    session' = session.withCallers session'.scopes.active session'.journal := by
  obtain ⟨store, ⟨owner, frames, active⟩, vocabulary, stepLimit, steps, journal⟩ := session
  obtain ⟨store', ⟨owner', frames', active'⟩, vocabulary', stepLimit', steps', journal'⟩ := session'
  obtain ⟨rfl, rfl, rfl, rfl, rfl, rfl⟩ := same
  rfl

/-- The host's stack pays no attention to the active scopes. -/
def CallStack.IgnoresCallers (stack : EvalStack) : Prop :=
  ∀ moment room session session', SameButCallers session session' →
    stack.failsAt moment room session = stack.failsAt moment room session'

/-- A stack with a fixed room knows nothing of the callers. -/
theorem CallStack.withRoom_ignoresCallers (room : Nat) :
    (CallStack.withRoom room : EvalStack).IgnoresCallers :=
  fun _ _ _ _ _ => rfl

/-- The sessions differ in journals and in what is active below the scopes entered since: `outer`
in the one, `outer'` in the other. -/
def SameAbove (outer outer' : List Handle) (session session' : Session) : Prop :=
  SameButCallers session session' ∧
    ∃ entered, session.scopes.active = entered ++ outer ∧ session'.scopes.active = entered ++ outer'

/-- Same value or same failure, and sessions that are the same above `outer` and `outer'`. -/
def EndAlike (outer outer' : List Handle) {α : Type} : Ending α → Ending α → Prop
  | .ok value left, .ok value' left' => value = value' ∧ SameAbove outer outer' left left'
  | .error failure left, .error failure' left' =>
    failure = failure' ∧ SameAbove outer outer' left left'
  | _, _ => False

section Sessions

variable {outer outer' : List Handle} {session session' : Session}

theorem SameAbove.of_active (same : SameButCallers session session')
    (active : session.scopes.active = outer) (active' : session'.scopes.active = outer') :
    SameAbove outer outer' session session' :=
  ⟨same, [], active, active'⟩

/-- Scopes that were entered on both sides count among what lies above the callers. -/
theorem SameAbove.trans {above above' : List Handle}
    (inner : SameAbove above above' session session')
    (shape : ∃ entered, above = entered ++ outer ∧ above' = entered ++ outer') :
    SameAbove outer outer' session session' := by
  obtain ⟨same, later, active, active'⟩ := inner
  obtain ⟨earlier, rfl, rfl⟩ := shape
  refine ⟨same, later ++ earlier, ?_, ?_⟩
  · rw [active, List.append_assoc]
  · rw [active', List.append_assoc]

theorem EndAlike.trans {above above' : List Handle} {α : Type} {ending ending' : Ending α}
    (inner : EndAlike above above' ending ending')
    (shape : ∃ entered, above = entered ++ outer ∧ above' = entered ++ outer') :
    EndAlike outer outer' ending ending' := by
  cases ending <;> cases ending'
  · exact ⟨inner.1, inner.2.trans shape⟩
  · exact inner
  · exact inner
  · exact ⟨inner.1, inner.2.trans shape⟩

/-- Two sequences end alike if their first parts do and their second parts do so from there. -/
theorem EndAlike.bind {above above' : List Handle} {α β : Type} {first first' : Routine α}
    {next next' : α → Routine β}
    (head : EndAlike above above' (first session) (first' session'))
    (tail : ∀ value mid mid', SameAbove above above' mid mid' →
      EndAlike outer outer' (next value mid) (next' value mid'))
    (shape : ∃ entered, above = entered ++ outer ∧ above' = entered ++ outer') :
    EndAlike outer outer' ((first >>= next) session) ((first' >>= next') session') := by
  cases result : first session <;> cases result' : first' session' <;>
    rw [result, result'] at head
  · obtain ⟨rfl, same⟩ := head
    rw [bind_ok result, bind_ok result']
    exact tail _ _ _ same
  · exact head.elim
  · exact head.elim
  · rw [bind_error result, bind_error result']
    exact head.trans shape

end Sessions

/-! ### What depends on the current scope only -/

namespace Scopes

variable {scopes : Scopes} {active : List Handle}

/-- Where a scope is found does not depend on which scopes are active. -/
theorem position_withActive (h : Handle) :
    { scopes with active }.position h = scopes.position h := by
  unfold position
  dsimp only
  cases h.position? .scopes scopes.owner scopes.frames.size <;> rfl

theorem parentFor_withActive (parent : Handle) :
    { scopes with active }.parentFor (some parent) = scopes.parentFor (some parent) := by
  unfold parentFor
  dsimp only
  rw [position_withActive]

/-- The current scope is the first of the active ones. -/
theorem current_withActive (heads : scopes.active.head? = active.head?) :
    { scopes with active }.current = scopes.current := by
  unfold current
  dsimp only
  cases shape : scopes.active with
  | nil =>
    cases active with
    | nil => rfl
    | cons other others =>
      rw [shape] at heads
      cases heads
  | cons scope outer =>
    cases active with
    | nil =>
      rw [shape] at heads
      cases heads
    | cons other others =>
      rw [shape] at heads
      cases heads
      rfl

/-- Chains follow the parents of frames, not the active scopes. -/
theorem chainWithin_withActive (steps : Nat) (scope : Handle) :
    { scopes with active }.chainWithin steps scope = scopes.chainWithin steps scope := by
  induction steps generalizing scope with
  | zero => rfl
  | succ steps ih =>
    have framed : { scopes with active }.frame scope = scopes.frame scope := by
      unfold frame
      rw [position_withActive]
    unfold chainWithin
    rw [framed]
    cases scopes.frame scope with
    | error failure => rfl
    | ok frame =>
      cases parent : frame.parent with
      | none => simp only [parent]
      | some parent => simp only [*]

/-- A search goes by the current scope only. -/
theorem find?_withActive (heads : scopes.active.head? = active.head?) (symbol : Handle) :
    { scopes with active }.find? symbol = scopes.find? symbol := by
  simp only [find?, chain, chainOf, current_withActive heads, chainWithin_withActive]

theorem lookup_withActive (heads : scopes.active.head? = active.head?) (naming : Naming)
    (symbol : Handle) :
    { scopes with active }.lookup naming symbol = scopes.lookup naming symbol := by
  rw [lookup_eq, lookup_eq, find?_withActive heads]

theorem currentPlace_withActive (heads : scopes.active.head? = active.head?) :
    { scopes with active }.currentPlace = scopes.currentPlace := by
  unfold currentPlace
  rw [current_withActive heads, funext position_withActive]

theorem bindingPlace_withActive (heads : scopes.active.head? = active.head?) (naming : Naming)
    (symbol : Handle) :
    { scopes with active }.bindingPlace naming symbol = scopes.bindingPlace naming symbol := by
  rw [bindingPlace_eq, bindingPlace_eq, find?_withActive heads]
  unfold placeFound
  rw [funext position_withActive]

end Scopes

/-! ### Routines run over different callers -/

/-- Started in sessions that differ in their callers only and have the same current scope, the two
routines end alike. -/
def IgnoresOuter (α : Type) (routine routine' : Routine α) : Prop :=
  ∀ session session', SameButCallers session session' → session.scopes.active ≠ [] →
    session.scopes.active.head? = session'.scopes.active.head? →
      EndAlike session.scopes.active session'.scopes.active (routine session) (routine' session')

/-- The same for sessions in which different scopes may be current. -/
def IgnoresCallers (α : Type) (routine routine' : Routine α) : Prop :=
  ∀ session session', SameButCallers session session' →
    session.scopes.active ≠ [] → session'.scopes.active ≠ [] →
      EndAlike session.scopes.active session'.scopes.active (routine session) (routine' session')

namespace IgnoresOuter

variable {stack : EvalStack} {α β : Type}

/-- It is enough to run both routines from one session over any two stacks of callers with the same
scope on top. -/
theorem of_withCallers {routine routine' : Routine α}
    (each : ∀ (session : Session) active journal, session.scopes.active ≠ [] →
      session.scopes.active.head? = active.head? →
        EndAlike session.scopes.active active (routine session)
          (routine' (session.withCallers active journal))) :
    IgnoresOuter α routine routine' := by
  intro session session' same entered heads
  rw [same.eq_withCallers]
  exact each session _ _ entered heads

/-- Two routines that pay no heed to the callers do so in sequence. -/
theorem bind {first first' : Routine α} {next next' : α → Routine β}
    (head : IgnoresOuter α first first')
    (tail : ∀ value, IgnoresOuter β (next value) (next' value)) :
    IgnoresOuter β (first >>= next) (first' >>= next') := by
  intro session session' same some_active heads
  refine (head session session' same some_active heads).bind ?_ ⟨[], rfl, rfl⟩
  intro value mid mid' above
  obtain ⟨alike, entered, active, active'⟩ := above
  refine (tail value mid mid' alike ?_ ?_).trans ⟨entered, active, active'⟩
  · rw [active]
    exact List.append_ne_nil_of_right_ne_nil entered some_active
  · rw [active, active', List.head?_append, List.head?_append, heads]

section Readers

variable {session : Session} {active : List Handle} {journal : Array Event}

theorem ok_withCallers (value : α) :
    EndAlike session.scopes.active active (.ok value session)
      (.ok value (session.withCallers active journal)) :=
  ⟨rfl, .of_active (sameButCallers_withCallers session active journal) rfl rfl⟩

theorem error_withCallers (failure : Failure) :
    EndAlike session.scopes.active active (.error failure session : Ending α)
      (.error failure (session.withCallers active journal)) :=
  ⟨rfl, .of_active (sameButCallers_withCallers session active journal) rfl rfl⟩

end Readers

/-- What is read of the store and of the vocabulary is the same on both sides. -/
theorem inspect (read : Store → Vocabulary → Except Failure α) :
    IgnoresOuter α (inspect read) (Routine.inspect read) := by
  apply of_withCallers
  intro session active journal _ _
  let other := session.withCallers active journal
  have alike : read other.store other.vocabulary = read session.store session.vocabulary := rfl
  cases found : read session.store session.vocabulary with
  | ok value =>
    rw [inspect_ok found, inspect_ok (alike.trans found)]
    exact ok_withCallers value
  | error failure =>
    rw [inspect_error found, inspect_error (alike.trans found)]
    exact error_withCallers failure

theorem currentScope : IgnoresOuter Handle currentScope currentScope := by
  apply of_withCallers
  intro session active journal entered heads
  let other := session.withCallers active journal
  have alike : other.scopes.current = session.scopes.current := Scopes.current_withActive heads
  obtain ⟨scope, found⟩ := Scopes.current_eq entered
  rw [currentScope_ok found, currentScope_ok (alike.trans found)]
  exact ok_withCallers scope

theorem lookupSymbol (symbol : Handle) :
    IgnoresOuter Handle (lookupSymbol symbol) (Routine.lookupSymbol symbol) := by
  apply of_withCallers
  intro session active journal _ heads
  let other := session.withCallers active journal
  have alike : other.scopes.lookup other.store.symbols.name symbol =
      session.scopes.lookup session.store.symbols.name symbol :=
    Scopes.lookup_withActive heads _ symbol
  cases found : session.scopes.lookup session.store.symbols.name symbol with
  | ok value =>
    rw [lookupSymbol_ok found, lookupSymbol_ok (alike.trans found)]
    exact ok_withCallers value
  | error failure =>
    rw [lookupSymbol_error found, lookupSymbol_error (alike.trans found)]
    exact error_withCallers failure

theorem bindSymbol (symbol value : Handle) :
    IgnoresOuter Unit (bindSymbol symbol value) (Routine.bindSymbol symbol value) := by
  apply of_withCallers
  intro session active journal _ heads
  let other := session.withCallers active journal
  have alike : other.scopes.currentPlace = session.scopes.currentPlace :=
    Scopes.currentPlace_withActive heads
  cases found : session.scopes.currentPlace with
  | ok place =>
    rw [bindSymbol_ok found, bindSymbol_ok (alike.trans found)]
    exact ⟨rfl, .of_active ⟨rfl, rfl, rfl, rfl, rfl, rfl⟩ rfl rfl⟩
  | error failure =>
    rw [bindSymbol_error found, bindSymbol_error (alike.trans found)]
    exact error_withCallers failure

theorem assignSymbol (symbol value : Handle) :
    IgnoresOuter Unit (assignSymbol symbol value) (Routine.assignSymbol symbol value) := by
  apply of_withCallers
  intro session active journal _ heads
  let other := session.withCallers active journal
  have alike : other.scopes.bindingPlace other.store.symbols.name symbol =
      session.scopes.bindingPlace session.store.symbols.name symbol :=
    Scopes.bindingPlace_withActive heads _ symbol
  cases found : session.scopes.bindingPlace session.store.symbols.name symbol with
  | ok place =>
    rw [assignSymbol_ok found, assignSymbol_ok (alike.trans found)]
    exact ⟨rfl, .of_active ⟨rfl, rfl, rfl, rfl, rfl, rfl⟩ rfl rfl⟩
  | error failure =>
    rw [assignSymbol_error found, assignSymbol_error (alike.trans found)]
    exact error_withCallers failure

theorem enforceLimit : IgnoresOuter Unit enforceLimit enforceLimit := by
  apply of_withCallers
  intro session active journal _ _
  let other := session.withCallers active journal
  have alike : (other.stepLimit ≠ 0 ∧ other.stepLimit < other.steps) =
      (session.stepLimit ≠ 0 ∧ session.stepLimit < session.steps) := rfl
  rw [enforceLimit_eq, enforceLimit_eq]
  by_cases exceeded : session.stepLimit ≠ 0 ∧ session.stepLimit < session.steps
  · rw [if_pos exceeded, if_pos (alike.mpr exceeded)]
    exact ⟨rfl, .of_active ⟨rfl, rfl, rfl, rfl, rfl, rfl⟩ rfl rfl⟩
  · rw [if_neg exceeded, if_neg fun other => exceeded (alike.mp other)]
    exact ok_withCallers ()

theorem countStep : IgnoresOuter Unit countStep Routine.countStep :=
  of_withCallers fun _ _ _ _ _ => ⟨rfl, .of_active ⟨rfl, rfl, rfl, rfl, rfl, rfl⟩ rfl rfl⟩

theorem respectful : Respectful IgnoresOuter where
  pure _ _ _ same _ _ := ⟨rfl, .of_active same rfl rfl⟩
  bind head tail := head.bind tail
  inspect _ := inspect _
  allocate _ := of_withCallers fun _ _ _ _ _ =>
    ⟨rfl, .of_active ⟨rfl, rfl, rfl, rfl, rfl, rfl⟩ rfl rfl⟩
  currentScope := currentScope
  lookupSymbol := lookupSymbol
  bindSymbol := bindSymbol
  assignSymbol := assignSymbol

end IgnoresOuter

/-! ### Procedure calls -/

section Calls

variable {stack : EvalStack} {room : Nat} {calls calls' : Calls} {outer outer' : List Handle}
  {session session' : Session}

theorem reach_endAlike (blind : stack.IgnoresCallers) (room : Nat) (moment : Moment)
    (above : SameAbove outer outer' session session') :
    EndAlike outer outer' (stack.reach room moment session) (stack.reach room moment session') := by
  rw [CallStack.reach_eq, CallStack.reach_eq, blind moment room session session' above.1]
  split
  · exact ⟨rfl, above⟩
  · exact ⟨rfl, above⟩

theorem makeFrame_endAlike (parent : Handle) (above : SameAbove outer outer' session session') :
    EndAlike outer outer' (makeFrame (some parent) session) (makeFrame (some parent) session') := by
  obtain ⟨same, entered, active, active'⟩ := above
  have alike :
      session'.scopes.parentFor (some parent) = session.scopes.parentFor (some parent) := by
    rw [same.eq_withCallers]
    exact Scopes.parentFor_withActive parent
  cases found : session.scopes.parentFor (some parent) with
  | ok link =>
    rw [makeFrame_ok found, makeFrame_ok (alike.trans found)]
    refine ⟨?_, ⟨same.store, same.owner, ?_, same.vocabulary, same.stepLimit, same.steps⟩,
      entered, active, active'⟩
    · simp only [Scopes.addFrame, Scopes.handleAt, same.owner, same.frames]
    · simp only [Scopes.addFrame, same.frames]
  | error failure =>
    rw [makeFrame_error found, makeFrame_error (alike.trans found)]
    exact ⟨rfl, same, entered, active, active'⟩

theorem SameAbove.activate (scope : Handle) (above : SameAbove outer outer' session session') :
    SameAbove outer outer' { session with scopes := session.scopes.activate scope }
      { session' with scopes := session'.scopes.activate scope } := by
  obtain ⟨⟨store, owner, frames, vocabulary, stepLimit, steps⟩, entered, active, active'⟩ := above
  exact ⟨⟨store, owner, frames, vocabulary, stepLimit, steps⟩, scope :: entered,
    congrArg (scope :: ·) active, congrArg (scope :: ·) active'⟩

theorem SameAbove.journal (above : SameAbove outer outer' session session')
    (events events' : Array Event) :
    SameAbove outer outer' { session with journal := events }
      { session' with journal := events' } := by
  obtain ⟨⟨store, owner, frames, vocabulary, stepLimit, steps⟩, entered, active, active'⟩ := above
  exact ⟨⟨store, owner, frames, vocabulary, stepLimit, steps⟩, entered, active, active'⟩

theorem enterScope_endAlike (blind : stack.IgnoresCallers)
    (checks : calls.reach = stack.reach room) (checks' : calls'.reach = stack.reach room)
    (parent : Handle) (above : SameAbove outer outer' session session') :
    EndAlike outer outer' (calls.enterScope parent session)
      (calls'.enterScope parent session') := by
  have check {mid mid' : Session} (moment : Moment) (above : SameAbove outer outer' mid mid') :
      EndAlike outer outer' (calls.reach moment mid) (calls'.reach moment mid') := by
    rw [checks, checks']
    exact reach_endAlike blind room moment above
  have here : ∃ entered, outer = entered ++ outer ∧ outer' = entered ++ outer' := ⟨[], rfl, rfl⟩
  refine (check .entering above).bind (fun _ _ _ above => ?_) here
  refine (makeFrame_endAlike parent above).bind (fun made _ _ above => ?_) here
  refine (check _ above).bind (fun _ mid mid' above => ?_) here
  have activated : EndAlike outer outer' (activate made.1 mid) (activate made.1 mid') :=
    ⟨rfl, above.activate made.1⟩
  refine activated.bind (fun _ _ _ above => ?_) here
  refine (check _ above).bind (fun _ _ _ above => ?_) here
  exact ⟨rfl, above.journal _ _⟩

theorem leave_of_cons {mid : Session} {scope : Handle} {below : List Handle}
    (shape : mid.scopes.active = scope :: below) (some_below : below ≠ []) :
    leave mid = .ok scope { mid with scopes := { mid.scopes with active := below } } := by
  obtain ⟨next, rest, rfl⟩ := List.exists_cons_of_ne_nil some_below
  exact leave_eq shape

/-- Leaving a scope that was entered on both sides takes it off both stacks. -/
theorem leave_endAlike {scope : Handle} (kept : outer ≠ []) (kept' : outer' ≠ [])
    (above : SameAbove (scope :: outer) (scope :: outer') session session') :
    EndAlike outer outer' (leave session) (leave session') := by
  obtain ⟨⟨store, owner, frames, vocabulary, stepLimit, steps⟩, entered, active, active'⟩ := above
  -- what is left is the topmost of the scopes entered, or else `scope` itself
  obtain ⟨top, rest, shape⟩ := List.exists_cons_of_ne_nil
    (List.append_ne_nil_of_right_ne_nil entered (List.cons_ne_nil scope []))
  have split (list : List Handle) : entered ++ scope :: list = top :: (rest ++ list) := by
    rw [← List.cons_append, ← shape, List.append_assoc]
    rfl
  rw [split] at active active'
  rw [leave_of_cons active (List.append_ne_nil_of_right_ne_nil rest kept),
    leave_of_cons active' (List.append_ne_nil_of_right_ne_nil rest kept')]
  exact ⟨rfl, ⟨store, owner, frames, vocabulary, stepLimit, steps⟩, rest, rfl, rfl⟩

theorem exitScope_endAlike (blind : stack.IgnoresCallers)
    (checks : calls.reach = stack.reach room) (checks' : calls'.reach = stack.reach room)
    {scope : Handle} (kept : outer ≠ []) (kept' : outer' ≠ [])
    (above : SameAbove (scope :: outer) (scope :: outer') session session') :
    EndAlike outer outer' (calls.exitScope session) (calls'.exitScope session') := by
  unfold Calls.exitScope
  rw [checks, checks']
  have here : ∃ entered, outer = entered ++ outer ∧ outer' = entered ++ outer' := ⟨[], rfl, rfl⟩
  refine (reach_endAlike blind room _ above).bind (fun _ _ _ above => ?_) ⟨[scope], rfl, rfl⟩
  refine (leave_endAlike kept kept' above).bind (fun _ _ _ above => ?_) here
  refine (reach_endAlike blind room _ above).bind (fun _ _ _ above => ?_) here
  exact ⟨rfl, above.journal _ _⟩

/-- A body that ends alike is left alike, whether or not it failed. -/
theorem ensuring_endAlike (blind : stack.IgnoresCallers)
    (checks : calls.reach = stack.reach room) (checks' : calls'.reach = stack.reach room)
    {scope : Handle} (kept : outer ≠ []) (kept' : outer' ≠ []) {α : Type} {body body' : Routine α}
    (inner : EndAlike (scope :: outer) (scope :: outer') (body session) (body' session')) :
    EndAlike outer outer' (ensuring body calls.exitScope session)
      (ensuring body' calls'.exitScope session') := by
  have here : ∃ entered, outer = entered ++ outer ∧ outer' = entered ++ outer' := ⟨[], rfl, rfl⟩
  cases result : body session <;> cases result' : body' session' <;> rw [result, result'] at inner
  · obtain ⟨rfl, above⟩ := inner
    rw [ensuring_ok result, ensuring_ok result']
    exact (exitScope_endAlike blind checks checks' kept kept' above).bind
      (fun _ _ _ above => ⟨rfl, above⟩) here
  · exact inner.elim
  · exact inner.elim
  · obtain ⟨rfl, above⟩ := inner
    rw [ensuring_error result, ensuring_error result']
    exact (exitScope_endAlike blind checks checks' kept kept' above).bind
      (fun _ _ _ above => ⟨rfl, above⟩) here

/-- A routine that runs in a scope of its own does not notice which scope was current before. -/
theorem within_ignoresCallers (blind : stack.IgnoresCallers)
    (checks : calls.reach = stack.reach room) (checks' : calls'.reach = stack.reach room)
    {α : Type} (parent : Handle) {body body' : Routine α} (inner : IgnoresOuter α body body') :
    IgnoresCallers α (calls.within parent body) (calls'.within parent body') := by
  intro session session' same kept kept'
  have opening := enterScope_endAlike blind checks checks' parent (.of_active same rfl rfl)
  cases enters : calls.enterScope parent session <;>
    cases enters' : calls'.enterScope parent session' <;> rw [enters, enters'] at opening
  · next mid _ mid' =>
    obtain ⟨-, alike, entered, active, active'⟩ := opening
    -- one scope has been entered, and it is the same in both sessions
    have one : ∃ scope, mid.scopes.active = scope :: session.scopes.active := by
      rcases enterScope_cases checks parent session with
        ⟨scope, left, done, shape⟩ | ⟨_, fails, _⟩ | ⟨_, fails, _⟩
      · rw [enters] at done
        cases done
        exact ⟨scope, shape⟩
      · rw [enters] at fails
        cases fails
      · rw [enters] at fails
        cases fails
    obtain ⟨scope, shape⟩ := one
    obtain rfl : entered = [scope] := List.append_cancel_right (active.symm.trans shape)
    rw [within_eq enters, within_eq enters']
    let called := mid.journal.push (.procedureApplied mid.scopes.depth)
    let called' := mid'.journal.push (.procedureApplied mid'.scopes.depth)
    have running := inner { mid with journal := called } { mid' with journal := called' }
      (SameAbove.journal ⟨alike, [scope], active, active'⟩ called called').1
      (active ▸ List.cons_ne_nil scope _) (by rw [active, active']; rfl)
    rw [active, active'] at running
    exact ensuring_endAlike blind checks checks' kept kept' running
  · exact opening.elim
  · exact opening.elim
  · rw [Calls.within, Calls.within, bind_error enters, bind_error enters']
    exact opening

end Calls

theorem IgnoresOuter.reach {stack : EvalStack} (blind : stack.IgnoresCallers) (room : Nat)
    (moment : Moment) : IgnoresOuter Unit (stack.reach room moment) (stack.reach room moment) :=
  fun _ _ same _ _ => reach_endAlike blind room moment (.of_active same rfl rfl)

/-- The rules by which evaluation as a whole is followed. -/
theorem IgnoresOuter.evalRelation {stack : EvalStack} (blind : stack.IgnoresCallers) :
    EvalRelation stack stack.reach (fun _ => throw .stackExhausted) IgnoresOuter where
  toRespectful := respectful
  reach := IgnoresOuter.reach blind
  tick := by
    intro room calls calls' checks checks'
    have checking := IgnoresOuter.reach blind room .counted
    rw [← checks] at checking
    rw [Calls.tick, Calls.tick, checks'.trans checks.symm]
    exact countStep.bind fun _ => checking.bind fun _ => enforceLimit
  exhausted _ _ _ same _ _ := ⟨rfl, .of_active same rfl rfl⟩
  within := by
    intro room calls calls' checks checks' α parent body body' inner session session' same kept
      heads
    apply within_ignoresCallers blind checks checks' parent inner session session' same kept
    intro empty
    rw [empty] at heads
    exact kept (List.head?_eq_none_iff.mp heads)

/-- A call of a procedure pays no heed to the callers. -/
theorem applyProcedure_ignoresCallers {stack : EvalStack} (blind : stack.IgnoresCallers)
    (room : Nat) (params body scope args : Handle) :
    IgnoresCallers Handle ((stack.callsWithin room).applyProcedure params body scope args)
      ((stack.callsWithin room).applyProcedure params body scope args) := by
  have law := IgnoresOuter.evalRelation blind
  have related := law.calls room
  apply within_ignoresCallers blind rfl rfl scope
  apply law.bind (related.bindParameters law.toRespectful.governed params args)
  intro _
  exact related.evaluate body

/-- A call of a procedure leaves the active scopes as it found them. -/
theorem applyProcedure_restores (stack : EvalStack) (room : Nat) (params body scope args : Handle)
    {session : Session} (entered : session.scopes.active ≠ []) :
    Restores stack session.scopes.active
      ((stack.callsWithin room).applyProcedure params body scope args session) := by
  have law := (KeepsScopes.respectful stack).governed
  have kept := (KeepsScopes.calls stack room).applyProcedure law params body scope args
  exact (kept session entered).1

/-- Scoping is lexical: the callers of a procedure cannot be told apart.

Of two sessions that differ in their active scopes and journals only, each has some active scope.
A procedure call ends in both with the same value or failure, and leaves the same store, frames
and count of steps; each session has its own scopes active again, except that scopes may be left
above them if the host's stack fails early. If the same scope is current in both, this holds of
any evaluation. -/
theorem callers_unobservable (stack : EvalStack) (blind : stack.IgnoresCallers) (room : Nat)
    (session session' : Session) (same : SameButCallers session session')
    (entered : session.scopes.active ≠ []) (entered' : session'.scopes.active ≠ []) :
    (∀ params body scope args,
      let call := (stack.callsWithin room).applyProcedure params body scope args
      EndAlike session.scopes.active session'.scopes.active (call session) (call session') ∧
        Restores stack session.scopes.active (call session) ∧
        Restores stack session'.scopes.active (call session')) ∧
    (session.scopes.active.head? = session'.scopes.active.head? → ∀ expr,
      EndAlike session.scopes.active session'.scopes.active
          (evaluate stack room expr session) (evaluate stack room expr session') ∧
        Restores stack session.scopes.active (evaluate stack room expr session) ∧
        Restores stack session'.scopes.active (evaluate stack room expr session')) := by
  constructor
  · intro params body scope args
    refine ⟨?_, applyProcedure_restores stack room params body scope args entered,
      applyProcedure_restores stack room params body scope args entered'⟩
    exact applyProcedure_ignoresCallers blind room _ _ _ _ _ _ same entered entered'
  · intro heads expr
    have kept := (KeepsScopes.calls stack room).evaluate expr
    refine ⟨?_, (kept session entered).1, (kept session' entered').1⟩
    exact (IgnoresOuter.evalRelation blind).evaluate room expr session session' same entered heads

/-- A session in which a scope was entered from the global one, and the same session with the
global scope current. -/
theorem callers_unobservable_from_global :
    let inner := match enterScope none (Session.start .standard 0) with
      | .ok _ left => left
      | .error _ left => left
    let global := inner.withCallers (Session.start .standard 0).scopes.active #[]
    ∀ params body scope args,
      EndAlike inner.scopes.active global.scopes.active
        (((CallStack.withRoom 330).callsWithin 330).applyProcedure params body scope args inner)
        (((CallStack.withRoom 330).callsWithin 330).applyProcedure params body scope args global) :=
  fun params body scope args =>
    ((callers_unobservable _ (CallStack.withRoom_ignoresCallers 330) 330 _ _
      (sameButCallers_withCallers _ _ _) (by decide) (by decide)).1 params body scope args).1

end ScopedLisp
