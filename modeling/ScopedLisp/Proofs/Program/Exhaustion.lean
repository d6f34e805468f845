import ScopedLisp.Proofs.Datum.Stack
import ScopedLisp.Proofs.Eval.ScopeStack
import ScopedLisp.Proofs.Session.Embedding

/-!
# Exhaustion of the host's stack

The host's stack may be found used up at any call that reading or evaluating makes, and at any
number of them. `scopes_restored` says what a session sees of it: a call on the interpreter ends
with the failure `recursionDepthExceeded`, with the scopes active that were active before. Where
exhaustion makes no difference to a call, the call ends as it does on any roomier stack.
-/

namespace ScopedLisp

/-- Both stacks of the machine `ample` are roomier than those of `host`. -/
def Host.FitsIn (host ample : Host) : Prop :=
  (∃ more, host.reading.FitsIn ample.reading more) ∧
    ∃ more, host.evaluating.FitsIn ample.evaluating more

/-- Of an ending: the active scopes are `kept` again, and a failure is neither an exhausted stack
nor a lack of scopes. -/
def Settles (kept : List Handle) {α : Type} : Ending α → Prop
  | .ok _ left => left.scopes.active = kept
  | .error failure left =>
    left.scopes.active = kept ∧ failure ≠ .stackExhausted ∧
      ∀ reason, failure ≠ .scopeUnderflow reason

namespace Settles

variable {kept : List Handle} {α β : Type}

theorem of_plain {failure : Failure} {left : Session} (same : left.scopes.active = kept)
    (plain : failure.isPlain = true) : Settles kept (.error failure left : Ending α) := by
  refine ⟨same, ?_, ?_⟩
  · rintro rfl
    cases plain
  · rintro reason rfl
    cases plain

theorem bind {first : Routine α} {next : α → Routine β} {session : Session}
    (head : Settles kept (first session))
    (tail : ∀ value mid, first session = .ok value mid → mid.scopes.active = kept →
      Settles kept (next value mid)) : Settles kept ((first >>= next) session) := by
  cases result : first session with
  | ok value mid =>
    rw [result] at head
    rw [Routine.bind_ok result]
    exact tail value mid result head
  | error failure left =>
    rw [result] at head
    rw [Routine.bind_error result]
    exact head

end Settles

/-- Cutting the active scopes back to their number before restores them, if they still lie below
what was entered since. -/
theorem Scopes.unwind_eq {scopes : Scopes} {kept : List Handle} (some_kept : kept ≠ [])
    (below : kept <:+ scopes.active) :
    scopes.unwind kept.length = .ok { scopes with active := kept } := by
  obtain ⟨above, shape⟩ := below
  have positive : 0 < kept.length := List.length_pos_iff.mpr some_kept
  have cut : scopes.active.length - (kept.length : Int).toNat = above.length := by
    rw [← shape, List.length_append]
    omega
  rw [unwind, if_neg (by omega), cut, ← shape, List.drop_left]

namespace Routine

variable {stack : EvalStack} {α : Type}

/-- An exhausted stack is reported as the program's failure, with the active scopes restored. -/
theorem guarded_of_exhausted {body : Routine α} {session left : Session}
    (entered : session.scopes.active ≠ [])
    (inner : Restores stack session.scopes.active (body session))
    (exhausted : body session = .error .stackExhausted left) :
    guarded body session = .error .recursionDepthExceeded
      { left with scopes := { left.scopes with active := session.scopes.active } } := by
  rw [exhausted] at inner
  have unwinds := Scopes.unwind_eq entered inner.2.1
  simp only [guarded, exhausted, Scopes.depth, unwinds]

theorem guarded_settles {body : Routine α} {session : Session}
    (entered : session.scopes.active ≠ [])
    (inner : Restores stack session.scopes.active (body session)) :
    Settles session.scopes.active (guarded body session) := by
  by_cases exhausted : ∃ left, body session = .error .stackExhausted left
  · obtain ⟨left, exhausted⟩ := exhausted
    rw [guarded_of_exhausted entered inner exhausted]
    exact ⟨rfl, nofun, nofun⟩
  · have other := not_exists.mp exhausted
    rw [guarded_of_other other]
    cases result : body session with
    | ok value left =>
      rw [result] at inner
      exact inner
    | error failure left =>
      rw [result] at inner
      have unlike : failure ≠ .stackExhausted := by
        rintro rfl
        exact other left result
      exact ⟨inner.2.2.resolve_right fun both => unlike both.1, unlike, inner.1⟩

theorem guarded_equalUnless {body body' : Routine α} {session : Session}
    (entered : session.scopes.active ≠ [])
    (inner : Restores stack session.scopes.active (body session))
    (ends : EqualUnless .stackExhausted (body session) (body' session)) :
    EqualUnless .recursionDepthExceeded (guarded body session) (guarded body' session) := by
  rcases ends with same | ⟨left, exhausted⟩
  · simp only [guarded, same]
    exact .refl _
  · exact .inr ⟨_, guarded_of_exhausted entered inner exhausted⟩

/-- Started in the session, the first routine settles the active scopes, and it ends as the second
one does unless it reports that the host's stack was exhausted. -/
def SettlesAlike (session : Session) (routine routine' : Routine α) : Prop :=
  Settles session.scopes.active (routine session) ∧
    EqualUnless .recursionDepthExceeded (routine session) (routine' session)

theorem SettlesAlike.bind {β : Type} {first first' : Routine α} {next next' : α → Routine β}
    {session : Session} (head : SettlesAlike session first first')
    (tail : ∀ value mid, first session = .ok value mid →
      mid.scopes.active = session.scopes.active → SettlesAlike mid (next value) (next' value)) :
    SettlesAlike session (first >>= next) (first' >>= next') := by
  obtain ⟨settles, ends⟩ := head
  refine ⟨settles.bind fun value mid result same => ?_, ends.bind fun value mid result => ?_⟩
  · exact same ▸ (tail value mid result same).1
  · rw [result] at settles
    exact (tail value mid result settles).2

theorem SettlesAlike.of_storeOnly {routine : Routine α} (only : ChangesStoreOnly routine)
    (session : Session) : SettlesAlike session routine routine := by
  refine ⟨?_, .refl _⟩
  obtain ⟨⟨store, left⟩, plain⟩ := only session
  unfold after failure? at *
  cases result : routine session with
  | ok value final =>
    rw [result] at left
    exact congrArg (·.scopes.active) left
  | error failure final =>
    rw [result] at left plain
    exact .of_plain (congrArg (·.scopes.active) left) (plain failure rfl)

variable {host ample : Host} {session : Session}

theorem evaluate_restores (stack : EvalStack) (room : Nat) (expr : Handle)
    (entered : session.scopes.active ≠ []) :
    Restores stack session.scopes.active (evaluate stack room expr session) :=
  ((KeepsScopes.calls stack room).evaluate expr session entered).1

/-- On a roomier stack an evaluation is the one with less room that goes on where the latter is
exhausted. -/
theorem evaluate_add (ample : EvalStack) (room more : Nat) :
    evaluate ample (room + more) =
      evaluateWith (fun left => ample.reach (left + more)) (evaluate ample more) room := by
  induction room with
  | zero =>
    rw [Nat.zero_add]
    rfl
  | succ room ih =>
    funext expr
    rw [Nat.add_right_comm]
    exact congrArg (fun inner => Calls.step ⟨inner, ample.reach (room + more)⟩ expr) ih

theorem admits_of_fits {ample : EvalStack} {more : Nat} (fits : stack.FitsIn ample more) :
    stack.Admits fun left => ample.reach (left + more) := by
  intro room moment session calm
  rw [Bool.eq_false_iff] at calm
  apply ample.admits_reach (room + more) moment session
  rw [Bool.eq_false_iff]
  exact fun early => calm (fits.calmer moment room session early)

/-- What is done where the stack is exhausted does not matter. -/
theorem evaluateAt_settlesAlikeWith {check : Nat → Moment → Routine Unit}
    (admits : host.evaluating.Admits check) (exhausted : Handle → Routine Handle)
    (entered : session.scopes.active ≠ []) (expr : Handle) :
    SettlesAlike session (evaluateAt host expr)
      (guarded (evaluateWith check exhausted host.evaluating.room expr)) := by
  have law := KeepsScopes.evalRelation admits exhausted
  obtain ⟨restores, ends⟩ := law.evaluate host.evaluating.room expr session entered
  exact ⟨guarded_settles entered restores, guarded_equalUnless entered restores ends⟩

theorem evaluateAt_settlesAlike (fits : host.FitsIn ample) (entered : session.scopes.active ≠ [])
    (expr : Handle) : SettlesAlike session (evaluateAt host expr) (evaluateAt ample expr) := by
  obtain ⟨more, fits⟩ := fits.2
  have going_on : evaluateAt ample expr =
      guarded (evaluateWith (fun left => ample.evaluating.reach (left + more))
        (evaluate ample.evaluating more) host.evaluating.room expr) := by
    rw [← evaluate_add, ← fits.room]
    rfl
  rw [going_on]
  exact evaluateAt_settlesAlikeWith (admits_of_fits fits) _ entered expr

theorem evaluateDatum_settlesAlike (fits : host.FitsIn ample)
    (entered : session.scopes.active ≠ []) (datum : Datum) :
    SettlesAlike session (evaluateDatum host datum) (evaluateDatum ample datum) := by
  apply (SettlesAlike.of_storeOnly (embed_changesStoreOnly datum) session).bind
  intro expr mid _ same
  exact evaluateAt_settlesAlike fits (same ▸ entered) expr

theorem restores_of_reading (stack : EvalStack) {failure : Failure}
    (well : failure = .stackExhausted ∨ failure.isOfText = true) :
    Restores stack session.scopes.active (.error failure session : Ending α) := by
  refine ⟨?_, List.suffix_refl _, .inl rfl⟩
  rintro reason rfl
  rcases well with ⟨⟨⟩⟩ | ⟨⟨⟩⟩

theorem readNext_of_exhausted (entered : session.scopes.active ≠ []) {stream left : TokenStream}
    (exhausted : Reader.datum? host.reading stream = .error .stackExhausted left) :
    readNext host stream session = .error .recursionDepthExceeded session := by
  rw [readNext_of_error exhausted]
  exact guarded_of_exhausted entered (restores_of_reading host.evaluating (.inl rfl)) rfl

/-- Reading the next datum does not touch the session. -/
theorem readNext_settlesAlike (fits : host.FitsIn ample) (entered : session.scopes.active ≠ [])
    {stream : TokenStream} (plain : stream.EndsPlainly) :
    SettlesAlike session (readNext host stream) (readNext ample stream) ∧
      ∀ datum left mid, readNext host stream session = .ok (some (datum, left)) mid →
        left.EndsPlainly := by
  obtain ⟨more, fits⟩ := fits.1
  obtain ⟨ends, well⟩ := Reader.datum?_alike fits stream plain
  unfold readNext
  cases result : Reader.datum? host.reading stream with
  | ok datum left =>
    rw [result] at ends well
    have same : Reader.datum? ample.reading stream = .ok datum left := by
      rcases ends with same | ⟨other, failed⟩
      · exact same.symm
      · cases failed
    rw [same]
    refine ⟨⟨rfl, .refl _⟩, ?_⟩
    intro found rest mid read
    cases datum <;> cases read
    exact well
  | error failure left =>
    rw [result] at ends well
    have inner : Restores host.evaluating session.scopes.active
        (.error failure session : Ending (Option (Datum × TokenStream))) :=
      restores_of_reading _ well
    refine ⟨⟨guarded_settles entered inner, guarded_equalUnless entered inner ?_⟩, ?_⟩
    · rcases ends with same | ⟨other, failed⟩
      · rw [← same]
        exact .refl _
      · cases failed
        exact .inr ⟨session, rfl⟩
    · intro found rest mid read
      exact absurd read (guarded_throw_ne_ok failure session mid (some (found, rest)))

theorem evaluateStream_settlesAlike (fits : host.FitsIn ample) (rounds forms : Nat)
    {stream : TokenStream} (plain : stream.EndsPlainly) (result : Handle)
    (entered : session.scopes.active ≠ []) :
    SettlesAlike session (evaluateStream host rounds forms stream result)
      (evaluateStream ample rounds forms stream result) := by
  induction rounds generalizing forms stream result session with
  | zero => exact ⟨rfl, .refl _⟩
  | succ rounds ih =>
    obtain ⟨reads, left_plain⟩ := readNext_settlesAlike fits entered plain
    apply reads.bind
    intro found mid read same
    cases found with
    | none => exact ⟨rfl, .refl _⟩
    | some next =>
      obtain ⟨datum, left⟩ := next
      apply (evaluateDatum_settlesAlike fits (same ▸ entered) datum).bind
      intro value last _ same'
      exact ih _ (left_plain datum left mid read) _ (same' ▸ same ▸ entered)

theorem evaluateSource_settlesAlike (fits : host.FitsIn ample)
    (entered : session.scopes.active ≠ []) (source : String) :
    SettlesAlike session (evaluateSource host source) (evaluateSource ample source) := by
  have plain := Token.scanFrom_endsPlainly 0 source.toList
  have reading : SettlesAlike session nil nil := ⟨rfl, .refl _⟩
  apply reading.bind
  intro result mid _ same
  apply (evaluateStream_settlesAlike fits _ 0 plain result (same ▸ entered)).bind
  rintro ⟨forms, value⟩ last _ _
  exact ⟨rfl, .refl _⟩

/-- The active scopes outlive every evaluation and every call on the interpreter.

An evaluation restores them whatever its outcome; only if the host's stack is found used up early
may scopes be left above them. A call on the interpreter restores them in that case too and
reports the exhaustion as the program's failure, and no call ever fails for want of scopes.

Exhaustion is not passed over. Where the stack is found used up, anything else may be put in its
place: the check passes, the evaluation goes on, the failure is another one. The call ends as it
does then, unless it ends in the report. So it is with a roomier machine in particular. -/
theorem scopes_restored (session : Session) (entered : session.scopes.active ≠ []) :
    (∀ stack room expr,
      Restores stack session.scopes.active (evaluate stack room expr session)) ∧
    (∀ host expr left,
      evaluate host.evaluating host.evaluating.room expr session = .error .stackExhausted left →
        evaluateAt host expr session = .error .recursionDepthExceeded
          { left with scopes := { left.scopes with active := session.scopes.active } }) ∧
    (∀ host stream left,
      Reader.datum? host.reading stream = .error .stackExhausted left →
        readNext host stream session = .error .recursionDepthExceeded session) ∧
    (∀ host check exhausted expr, host.evaluating.Admits check →
      SettlesAlike session (evaluateAt host expr)
        (guarded (evaluateWith check exhausted host.evaluating.room expr))) ∧
    (∀ host ample datum, host.FitsIn ample →
      SettlesAlike session (evaluateDatum host datum) (evaluateDatum ample datum)) ∧
    (∀ host ample source, host.FitsIn ample →
      SettlesAlike session (evaluateSource host source) (evaluateSource ample source)) := by
  refine ⟨fun stack room expr => evaluate_restores stack room expr entered, ?_, ?_, ?_, ?_, ?_⟩
  · intro host expr left exhausted
    exact guarded_of_exhausted entered (evaluate_restores _ _ expr entered) exhausted
  · intro host stream left exhausted
    exact readNext_of_exhausted entered exhausted
  · intro host check exhausted expr admits
    exact evaluateAt_settlesAlikeWith admits exhausted entered expr
  · intro host ample datum fits
    exact evaluateDatum_settlesAlike fits entered datum
  · intro host ample source fits
    exact evaluateSource_settlesAlike fits entered source

/-- A machine on which evaluation finds its stack used up whenever a scope is about to be left. -/
def exitless : Host := ⟨.withRoom 900, 330, fun moment _ _ => moment = .leaving⟩

theorem exitless_fitsIn_standard : exitless.FitsIn .standard :=
  ⟨⟨0, .refl _⟩, 0, rfl, nofun⟩

/-- A procedure call whose scope cannot be left still leaves the global scope active alone. -/
theorem scopes_restored_of_exitless :
    (Session.start .standard 0).scopes.active ≠ [] ∧
      Settles (Session.start .standard 0).scopes.active
        (evaluateSource exitless "((lambda (x) x) 1)" (Session.start .standard 0)) := by
  have entered : (Session.start .standard 0).scopes.active ≠ [] := by decide
  exact ⟨entered, ((scopes_restored _ entered).2.2.2.2.2 exitless .standard _
    exitless_fitsIn_standard).1⟩

end Routine

end ScopedLisp
