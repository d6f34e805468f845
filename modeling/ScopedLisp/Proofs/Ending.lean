import ScopedLisp.Program

/-!
# How routines end

A routine ends with a value or with a failure, and leaves a session in either case. The equations
below run the primitives; statements about routines are derived from them without looking into
the monad again.
-/

namespace ScopedLisp

abbrev Ending (α : Type) := EStateM.Result Failure Session α

/-- The session that an ending leaves. -/
def Ending.left {α : Type} : Ending α → Session
  | .ok _ session => session
  | .error _ session => session

/-- The ending, with the session that is left changed. -/
def Ending.onLeft {α : Type} (change : Session → Session) : Ending α → Ending α
  | .ok value left => .ok value (change left)
  | .error failure left => .error failure (change left)

theorem Ending.left_onLeft {α : Type} (change : Session → Session) (ending : Ending α) :
    (ending.onLeft change).left = change ending.left := by
  cases ending <;> rfl

/-- The first ending is the second unless it is the failure `cause`. -/
def EqualUnless (cause : Failure) {σ α : Type} (ending ending' : EStateM.Result Failure σ α) :
    Prop :=
  ending = ending' ∨ ∃ left, ending = .error cause left

namespace Routine

variable {α β : Type}

/-- The session that the routine leaves. -/
def after (routine : Routine α) (session : Session) : Session :=
  match routine session with
  | .ok _ left => left
  | .error _ left => left

/-- The failure with which the routine ends, if it fails. -/
def failure? (routine : Routine α) (session : Session) : Option Failure :=
  match routine session with
  | .ok _ _ => none
  | .error failure _ => some failure

/-- What a failed routine leaves is what it left when it failed. -/
theorem after_error {routine : Routine α} {session left : Session} {failure : Failure}
    (ended : routine session = .error failure left) : routine.after session = left := by
  rw [after, ended]

/-- The failure of a routine is the one that it ends in. -/
theorem failure?_eq_some_iff {routine : Routine α} {session : Session} {failure : Failure} :
    routine.failure? session = some failure ↔ ∃ left, routine session = .error failure left := by
  unfold failure?
  cases routine session with
  | ok value left => exact ⟨nofun, nofun⟩
  | error cause left =>
    exact ⟨fun same => Option.some.inj same ▸ ⟨left, rfl⟩, by rintro ⟨_, ⟨⟩⟩; rfl⟩

/-- A sequence goes on where its first part succeeded, with the state that it left. -/
theorem bind_ok {σ : Type} {first : EStateM Failure σ α} {next : α → EStateM Failure σ β}
    {state mid : σ} {value : α} (head : first state = .ok value mid) :
    (first >>= next) state = next value mid := by
  simp only [bind, EStateM.bind, head]

/-- A failure of the first part is the failure of a sequence. -/
theorem bind_error {σ : Type} {first : EStateM Failure σ α} {next : α → EStateM Failure σ β}
    {state mid : σ} {failure : Failure} (head : first state = .error failure mid) :
    (first >>= next) state = .error failure mid := by
  simp only [bind, EStateM.bind, head]

theorem bind_congr_left {first first' : Routine α} {session : Session}
    (same : first session = first' session) (next : α → Routine β) :
    (first >>= next) session = (first' >>= next) session := by
  simp only [bind, EStateM.bind, same]

/-- Only what follows a success of the first part matters. -/
theorem bind_congr_of_ok {first : Routine α} {next next' : α → Routine β} {session : Session}
    (same : ∀ value mid, first session = .ok value mid → next value mid = next' value mid) :
    (first >>= next) session = (first >>= next') session := by
  cases result : first session with
  | ok value mid => rw [bind_ok result, bind_ok result, same value mid result]
  | error failure left => rw [bind_error result, bind_error result]

/-- What holds of the sessions before and after each of two routines holds of the sequence. -/
theorem after_bind {P : Session → Session → Prop}
    (trans : ∀ {session mid later}, P session mid → P mid later → P session later)
    {first : Routine α} {next : α → Routine β} (head : ∀ session, P session (first.after session))
    (tail : ∀ value session, P session ((next value).after session)) (session : Session) :
    P session ((first >>= next).after session) := by
  have before := head session
  unfold after at *
  cases result : first session with
  | ok value mid =>
    rw [result] at before
    rw [bind_ok result]
    exact trans before (tail value mid)
  | error failure left =>
    rw [result] at before
    rw [bind_error result]
    exact before

theorem get_ok {σ : Type} (state : σ) : (get : EStateM Failure σ σ) state = .ok state state :=
  rfl

theorem inspect_ok {read : Store → Vocabulary → Except Failure α} {session : Session} {value : α}
    (found : read session.store session.vocabulary = .ok value) :
    inspect read session = .ok value session := by
  simp only [inspect, bind, EStateM.bind, get_ok, found]
  rfl

theorem inspect_error {read : Store → Vocabulary → Except Failure α} {session : Session}
    {failure : Failure} (found : read session.store session.vocabulary = .error failure) :
    inspect read session = .error failure session := by
  simp only [inspect, bind, EStateM.bind, get_ok, found]
  rfl

/-- After a success the cleanup is run, and the value is kept if the cleanup succeeds. -/
theorem ensuring_ok {body : Routine α} {cleanup : Routine Unit} {session after : Session}
    {value : α} (head : body session = .ok value after) :
    ensuring body cleanup session = (cleanup >>= fun _ => pure value) after := by
  simp only [ensuring, head, bind, EStateM.bind]
  cases cleanup after <;> rfl

/-- After a failure the cleanup is run too, and the failure is kept if the cleanup succeeds. -/
theorem ensuring_error {body : Routine α} {cleanup : Routine Unit} {session after : Session}
    {failure : Failure} (head : body session = .error failure after) :
    ensuring body cleanup session = (cleanup >>= fun _ => throw failure) after := by
  simp only [ensuring, head, bind, EStateM.bind]
  cases cleanup after <;> rfl

/-- Whatever a guarded body does, what is left is what the cleanup leaves. -/
theorem left_ensuring (body : Routine α) (cleanup : Routine Unit) (session : Session) :
    Ending.left (ensuring body cleanup session) =
      Ending.left (cleanup (Ending.left (body session))) := by
  unfold ensuring
  cases body session with
  | ok value mid =>
    dsimp only [Ending.left]
    cases cleanup mid <;> rfl
  | error failure mid =>
    dsimp only [Ending.left]
    cases cleanup mid <;> rfl

theorem left_ofExcept (result : Except Failure α) (session : Session) :
    Ending.left ((ofExcept result : Routine α) session) = session := by
  cases result <;> rfl

theorem lookupSymbol_ok {symbol value : Handle} {session : Session}
    (found : session.scopes.lookup session.store.symbols.name symbol = .ok value) :
    lookupSymbol symbol session = .ok value session := by
  simp only [lookupSymbol, bind, EStateM.bind, get_ok, found]
  rfl

theorem lookupSymbol_error {symbol : Handle} {session : Session} {failure : Failure}
    (missing : session.scopes.lookup session.store.symbols.name symbol = .error failure) :
    lookupSymbol symbol session = .error failure session := by
  simp only [lookupSymbol, bind, EStateM.bind, get_ok, missing]
  rfl

theorem currentScope_ok {scope : Handle} {session : Session}
    (found : session.scopes.current = .ok scope) : currentScope session = .ok scope session := by
  simp only [currentScope, bind, EStateM.bind, get_ok, found]
  rfl

theorem bindSymbol_ok {symbol value : Handle} {session : Session}
    {place : Fin session.scopes.frames.size} (found : session.scopes.currentPlace = .ok place) :
    bindSymbol symbol value session =
      .ok () { session with scopes := session.scopes.write place symbol value } := by
  simp only [bindSymbol, writeBinding, found]

theorem bindSymbol_error {symbol value : Handle} {session : Session} {failure : Failure}
    (missing : session.scopes.currentPlace = .error failure) :
    bindSymbol symbol value session = .error failure session := by
  simp only [bindSymbol, writeBinding, missing]

theorem assignSymbol_ok {symbol value : Handle} {session : Session}
    {place : Fin session.scopes.frames.size}
    (found : session.scopes.bindingPlace session.store.symbols.name symbol = .ok place) :
    assignSymbol symbol value session =
      .ok () { session with scopes := session.scopes.write place symbol value } := by
  simp only [assignSymbol, writeBinding, found]

theorem assignSymbol_error {symbol value : Handle} {session : Session} {failure : Failure}
    (missing : session.scopes.bindingPlace session.store.symbols.name symbol = .error failure) :
    assignSymbol symbol value session = .error failure session := by
  simp only [assignSymbol, writeBinding, missing]

/-- The limit fails just if there is one and it has been passed, and then this is reported. -/
theorem enforceLimit_eq (session : Session) :
    enforceLimit session =
      if session.stepLimit ≠ 0 ∧ session.stepLimit < session.steps then
        .error (.stepLimitExceeded session.stepLimit)
          { session with journal := session.journal.push (.budgetExhausted session.stepLimit) }
      else .ok () session := by
  simp only [enforceLimit, bind, EStateM.bind, get_ok]
  split <;> rfl

theorem makeFrame_ok {parent link : Option Handle} {session : Session}
    (found : session.scopes.parentFor parent = .ok link) :
    makeFrame parent session =
      .ok ((session.scopes.addFrame link).2, link)
        { session with scopes := (session.scopes.addFrame link).1 } := by
  simp only [makeFrame, bind, EStateM.bind, get_ok, found]
  rfl

theorem makeFrame_error {parent : Option Handle} {session : Session} {failure : Failure}
    (missing : session.scopes.parentFor parent = .error failure) :
    makeFrame parent session = .error failure session := by
  simp only [makeFrame, bind, EStateM.bind, get_ok, missing]
  rfl

/-- Where two scopes are active, the innermost one is left. -/
theorem leave_eq {session : Session} {scope next : Handle} {outer : List Handle}
    (two : session.scopes.active = scope :: next :: outer) :
    leave session =
      .ok scope { session with scopes := { session.scopes with active := next :: outer } } := by
  have left : session.scopes.exit =
      .ok ({ session.scopes with active := next :: outer }, scope) := by
    simp only [Scopes.exit, two]
  simp only [leave, bind, EStateM.bind, get_ok, left]
  rfl

theorem leave_error {session : Session} {failure : Failure}
    (stays : session.scopes.exit = .error failure) : leave session = .error failure session := by
  simp only [leave, bind, EStateM.bind, get_ok, stays]
  rfl

/-- The outermost scope is not left. -/
theorem leave_of_few {session : Session} (few : session.scopes.active.length ≤ 1) :
    leave session = .error (.scopeUnderflow .exitGlobal) session := by
  apply leave_error
  rcases shape : session.scopes.active with _ | ⟨scope, _ | ⟨next, outer⟩⟩
  · simp only [Scopes.exit, shape]
  · simp only [Scopes.exit, shape]
  · rw [shape, List.length_cons, List.length_cons] at few
    omega

theorem unwind_ok {depth : Int} {session : Session} {scopes : Scopes}
    (done : session.scopes.unwind depth = .ok scopes) :
    unwind depth session = .ok () { session with scopes } := by
  simp only [unwind, bind, EStateM.bind, get_ok, done]
  rfl

theorem unwind_error {depth : Int} {session : Session} {failure : Failure}
    (failed : session.scopes.unwind depth = .error failure) :
    unwind depth session = .error failure session := by
  simp only [unwind, bind, EStateM.bind, get_ok, failed]
  rfl

/-! ### Guarded routines -/

/-- The guard does nothing to a body that does not use up the host's stack. -/
theorem guarded_of_other {body : Routine α} {session : Session}
    (other : ∀ left, body session ≠ .error .stackExhausted left) :
    guarded body session = body session := by
  unfold guarded
  split
  · next left exhausted => exact absurd exhausted (other left)
  · rfl

theorem guarded_throw_of_ne {failure : Failure} (other : failure ≠ .stackExhausted)
    (session : Session) : guarded (throw failure : Routine α) session = .error failure session := by
  refine guarded_of_other ?_
  rintro left ⟨⟩
  exact other rfl

/-- A guarded failure is a failure, the same one whatever value is expected. -/
theorem exists_guarded_throw (failure : Failure) (session : Session) :
    ∃ cause left, ∀ α : Type, guarded (throw failure : Routine α) session = .error cause left := by
  by_cases exhausted : failure = .stackExhausted
  · subst exhausted
    have throws (α : Type) : (throw .stackExhausted : Routine α) session =
        .error .stackExhausted session := rfl
    cases unwound : session.scopes.unwind session.scopes.depth with
    | ok scopes =>
      refine ⟨.recursionDepthExceeded, { session with scopes }, fun α => ?_⟩
      simp only [guarded, throws α, unwound]
    | error failure =>
      refine ⟨failure, session, fun α => ?_⟩
      simp only [guarded, throws α, unwound]
  · exact ⟨failure, session, fun α => guarded_throw_of_ne exhausted session⟩

theorem guarded_throw_ne_ok (failure : Failure) (session left : Session) (value : α) :
    guarded (throw failure) session ≠ .ok value left := by
  obtain ⟨cause, last, fails⟩ := exists_guarded_throw failure session
  rw [fails α]
  intro same
  cases same

/-- What is read from a stream leaves the session alone. -/
theorem readNext_of_ok {host : Host} {stream left : TokenStream} {datum : Option Datum}
    (read : Reader.datum? host.reading stream = .ok datum left) (session : Session) :
    readNext host stream session = .ok (datum.map (·, left)) session := by
  unfold readNext
  rw [read]
  rfl

/-- A failure of reading is guarded. -/
theorem readNext_of_error {host : Host} {stream left : TokenStream} {failure : Failure}
    (read : Reader.datum? host.reading stream = .error failure left) :
    readNext host stream = guarded (throw failure) := by
  unfold readNext
  rw [read]

end Routine

namespace EqualUnless

variable {cause : Failure} {σ α β : Type}

/-- What is equal is equal unless something happens. -/
theorem refl (ending : EStateM.Result Failure σ α) : EqualUnless cause ending ending := .inl rfl

/-- Sequences are equal unless one of their parts ends in the cause. -/
theorem bind {first first' : EStateM Failure σ α} {next next' : α → EStateM Failure σ β} {state : σ}
    (head : EqualUnless cause (first state) (first' state))
    (tail : ∀ value mid, first state = .ok value mid →
      EqualUnless cause (next value mid) (next' value mid)) :
    EqualUnless cause ((first >>= next) state) ((first' >>= next') state) := by
  rcases head with same | ⟨left, failed⟩
  · cases result : first state with
    | ok value mid =>
      rw [Routine.bind_ok result, Routine.bind_ok (same ▸ result)]
      exact tail value mid result
    | error failure mid =>
      rw [Routine.bind_error result, Routine.bind_error (same ▸ result)]
      exact refl _
  · exact .inr ⟨left, Routine.bind_error failed⟩

end EqualUnless

namespace CallStack

variable {α : Type}

/-- A check either finds the stack used up or does nothing. -/
theorem reach_eq (stack : EvalStack) (room : Nat) (moment : Moment) (session : Session) :
    stack.reach room moment session =
      if stack.failsAt moment room session then .error .stackExhausted session
      else .ok () session := by
  simp only [reach, bind, EStateM.bind, Routine.get_ok]
  split <;> rfl

/-- What follows a check of the stack is run if the stack holds. -/
theorem reach_bind (stack : EvalStack) (room : Nat) (moment : Moment) (next : Unit → Routine α)
    (session : Session) :
    (stack.reach room moment >>= next) session =
      if stack.failsAt moment room session then .error .stackExhausted session
      else next () session := by
  have check := stack.reach_eq room moment session
  split at check
  · next early => rw [Routine.bind_error check, if_pos early]
  · next calm => rw [Routine.bind_ok check, if_neg calm]

end CallStack

end ScopedLisp
