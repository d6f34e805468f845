import ScopedLisp.Proofs.Eval.Growth
import ScopedLisp.Proofs.Scopes.Search

/-!
# Regimes

A session is under a regime if its reserved words are the given ones and every record of its heap is
of a given kind. Evaluation keeps a session under its regime, whatever the outcome: of reserved
words it allocates only the one for a sequence of forms. A regime also says which failures may be
met, given what the store has come to hold.
-/

namespace ScopedLisp

open Routine

/-- The session has these reserved words, and every record of its heap satisfies `holds`. -/
structure Session.Under (words : Vocabulary) (holds : Record → Prop) (session : Session) :
    Prop where
  vocabulary : session.vocabulary = words
  records : ∀ record ∈ session.store.heap.records, holds record

/-- What is asked of records, special forms and failures so that evaluation keeps to them. -/
structure Regime (words : Vocabulary) (holds : Record → Prop) (offers : SpecialForm → Prop)
    (permits : Store → Failure → Prop) : Prop where
  plain : ∀ record, record.isWord = false → holds record
  sequence : ∀ {record}, words.classify SpecialForm.sequence.word = some record → holds record
  offered : ∀ {name form}, holds (.keyword name) → words.form name = .ok form → offers form
  form : ∀ {name failure}, holds (.keyword name) → words.form name = .error failure →
    ∀ store, permits store failure
  operator : ∀ {name failure}, holds (.operator name) → words.operator name = .error failure →
    ∀ store, permits store failure
  calls : ∀ {failure : Failure}, failure.isOfCalls = true → ∀ store, permits store failure
  digits : ∀ {store : Store}, store.heap.hasWide = true → permits store .tooManyDigits
  grows : ∀ {store later : Store} {failure}, store.Extends later → permits store failure →
    permits later failure

namespace Session.Under

variable {words : Vocabulary} {holds : Record → Prop} {session later : Session}

/-- Whether a session is under a regime depends on its heap and its vocabulary only. -/
theorem congr (under : session.Under words holds)
    (heap : later.store.heap = session.store.heap)
    (vocabulary : later.vocabulary = session.vocabulary) : later.Under words holds :=
  ⟨vocabulary.trans under.vocabulary, heap ▸ under.records⟩

/-- What a session under a regime stores satisfies the regime. -/
theorem record (under : session.Under words holds) {h : Handle} {record : Record}
    (stored : session.store.heap.get h = .ok record) : holds record := by
  obtain ⟨i, -, rfl⟩ := Heap.get_eq_ok_iff.mp stored
  exact under.records _ (Array.getElem_mem i.isLt)

/-- Storing a record that satisfies the regime stays under it. -/
theorem insert (under : session.Under words holds) {record : Record} (held : holds record) :
    ({ session with store := { session.store with heap := (session.store.heap.insert record).1 } }
      : Session).Under words holds := by
  refine ⟨under.vocabulary, fun other member => ?_⟩
  rcases Array.mem_push.mp member with before | rfl
  · exact under.records other before
  · exact held

end Session.Under

/-- A regime permits the failures that every store permits. -/
theorem Regime.permits_of_store {words : Vocabulary} {holds : Record → Prop}
    {offers : SpecialForm → Prop} {permits : Store → Failure → Prop}
    (law : Regime words holds offers permits) {store : Store} {failure : Failure}
    (permitted : store.permits failure = true) : permits store failure := by
  rcases Bool.or_eq_true_iff.mp permitted with ordinary | wide
  · exact law.calls (Failure.isOfCalls_of_isOrdinary ordinary) store
  · obtain ⟨same, wide⟩ := Bool.and_eq_true_iff.mp wide
    rw [eq_of_beq same]
    exact law.digits wide

/-- Of an ending: the session that is left is under the regime, and a failure is permitted. -/
def Upheld (words : Vocabulary) (holds : Record → Prop) (permits : Store → Failure → Prop)
    {α : Type} : Ending α → Prop
  | .ok _ left => left.Under words holds
  | .error failure left => left.Under words holds ∧ permits left.store failure

/-- A regime that is upheld governs the session that is left, on success and on failure. -/
theorem Upheld.left {words : Vocabulary} {holds : Record → Prop}
    {permits : Store → Failure → Prop} {α : Type} {ending : Ending α}
    (upheld : Upheld words holds permits ending) : ending.left.Under words holds := by
  cases ending with
  | ok value left => exact upheld
  | error failure left => exact upheld.1

/-- Started in a session under the regime, the first routine upholds it. -/
def Upholds (words : Vocabulary) (holds : Record → Prop) (permits : Store → Failure → Prop)
    (α : Type) (routine _other : Routine α) : Prop :=
  ∀ session : Session, session.Under words holds → Upheld words holds permits (routine session)

/-- A routine that upholds a regime fails only as the regime permits. -/
theorem Upholds.permits {words : Vocabulary} {holds : Record → Prop}
    {permits : Store → Failure → Prop} {α : Type} {routine other : Routine α}
    (upholds : Upholds words holds permits α routine other) {session : Session}
    (under : session.Under words holds) {failure : Failure}
    (failed : routine.failure? session = some failure) :
    permits (routine.after session).store failure := by
  have upheld := upholds session under
  obtain ⟨left, ended⟩ := failure?_eq_some_iff.mp failed
  rw [ended] at upheld
  rw [after_error ended]
  exact upheld.2

namespace Upholds

variable {words : Vocabulary} {holds : Record → Prop} {offers : SpecialForm → Prop}
  {permits : Store → Failure → Prop} {α β : Type}

/-- A routine followed by another upholds the regime if both do. -/
theorem bind {first first' : Routine α} {next next' : α → Routine β}
    (head : Upholds words holds permits α first first')
    (tail : ∀ value, Upholds words holds permits β (next value) (next' value)) :
    Upholds words holds permits β (first >>= next) (first' >>= next') := by
  intro session under
  have upheld := head session under
  cases result : first session with
  | ok value mid =>
    rw [result] at upheld
    rw [bind_ok result]
    exact tail value mid upheld
  | error failure left =>
    rw [result] at upheld
    rw [bind_error result]
    exact upheld

/-- What is read off the session can be relied on in what follows. -/
theorem delivers {routine : Routine α} (read : Session → Except Failure α)
    (reads : ∀ session, routine session = (ofExcept (read session) : Routine α) session)
    {goal : α → Prop}
    (finds : ∀ session, session.Under words holds → ∀ value, read session = .ok value → goal value)
    (fails : ∀ session, session.Under words holds → ∀ failure, read session = .error failure →
      permits session.store failure) :
    Delivers (Upholds words holds permits) goal routine routine := by
  intro β next next' tail session under
  have runs := reads session
  cases found : read session with
  | ok value =>
    rw [found] at runs
    rw [bind_ok runs]
    exact tail value (finds session under value found) session under
  | error failure =>
    rw [found] at runs
    rw [bind_error runs]
    exact ⟨under, fails session under failure found⟩

/-- A routine that only reads the session upholds the regime if its failures are permitted. -/
theorem reading {routine : Routine α} (read : Session → Except Failure α)
    (reads : ∀ session, routine session = (ofExcept (read session) : Routine α) session)
    (fails : ∀ session, session.Under words holds → ∀ failure, read session = .error failure →
      permits session.store failure) :
    Upholds words holds permits α routine routine := by
  intro session under
  rw [reads session]
  cases found : read session with
  | ok value => exact under
  | error failure => exact ⟨under, fails session under failure found⟩

theorem pure (value : α) : Upholds words holds permits α (pure value) (Pure.pure value) :=
  fun _ under => under

/-- A routine that succeeds and touches neither the heap nor the reserved words. -/
theorem of_ok {routine : Routine α}
    (ends : ∀ session, ∃ value left, routine session = .ok value left ∧
      left.store.heap = session.store.heap ∧ left.vocabulary = session.vocabulary) :
    Upholds words holds permits α routine routine := by
  intro session under
  obtain ⟨value, left, result, heap, vocabulary⟩ := ends session
  rw [result]
  exact under.congr heap vocabulary

/-- Storing a record that satisfies the regime upholds it. -/
theorem allocate {record : Record} (held : holds record) :
    Upholds words holds permits Handle (allocate record) (Routine.allocate record) :=
  fun _ under => under.insert held

section Primitives

variable (law : Regime words holds offers permits)
include law

/-- Failures of calls are permitted under every regime. -/
theorem throwing {failure : Failure} (ofCalls : failure.isOfCalls = true) :
    Upholds words holds permits α (throw failure) (throw failure) :=
  fun session under => ⟨under, law.calls ofCalls session.store⟩

/-- Writing a binding does not touch the heap. It upholds the regime if its place can only be missed
as calls may fail. -/
theorem writeBinding {find : (session : Session) → Except Failure (Fin session.scopes.frames.size)}
    (fails : ∀ session, FailsWithin Failure.isOfCalls (find session)) (symbol value : Handle) :
    Upholds words holds permits Unit (writeBinding find symbol value)
      (Routine.writeBinding find symbol value) := by
  intro session under
  unfold Routine.writeBinding
  split
  · exact under.congr rfl rfl
  · next failure missing => exact ⟨under, law.calls (fails session failure missing) session.store⟩

/-- The operations that evaluation is made of uphold the regime. -/
theorem governed : Governed holds offers (Upholds words holds permits) where
  plain := law.plain
  pure := pure
  bind := bind
  inspect permitted := reading (fun session => _) (fun _ => rfl) fun session _ failure missing =>
    law.permits_of_store (permitted session.store session.vocabulary failure missing)
  fetch h := delivers (fun session => session.store.heap.get h) (fun _ => rfl)
    (fun _ under _ stored => under.record stored) fun session _ failure missing =>
      law.permits_of_store (session.store.permits_get h failure missing)
  sequence := delivers
    (fun session => .ok (session.vocabulary.classify SpecialForm.sequence.word)) (fun _ => rfl)
    (fun session under word found record same => by
      cases found
      rw [under.vocabulary] at same
      exact law.sequence same)
    (fun _ _ _ => nofun)
  form {name} held := delivers (fun session => session.vocabulary.form name) (fun _ => rfl)
    (fun _ under _ found => law.offered held (under.vocabulary ▸ found))
    fun _ under _ missing => law.form held (under.vocabulary ▸ missing) _
  operator {name} held := reading (fun session => session.vocabulary.operator name) (fun _ => rfl)
    fun _ under _ missing => law.operator held (under.vocabulary ▸ missing) _
  allocate := allocate
  currentScope := reading (fun session => session.scopes.current) (fun _ => rfl)
    fun _ _ failure missing =>
      law.calls (Scopes.current_failsWithin (.ofCalls _) failure missing) _
  lookupSymbol symbol := reading
    (fun session => session.scopes.lookup session.store.symbols.name symbol) (fun _ => rfl)
    fun session _ failure missing =>
      law.calls (Scopes.lookup_failsWithin (.ofCalls _)
        (session.store.symbols.name_failsOrdinarily symbol) failure missing) _
  bindSymbol := writeBinding law fun _ => Scopes.currentPlace_failsWithin (.ofCalls _)
  assignSymbol _ symbol := writeBinding law (fun session =>
    Scopes.bindingPlace_failsWithin (.ofCalls _)
      (session.store.symbols.name_failsOrdinarily symbol)) symbol

/-- A body with a cleanup upholds the regime if both do, however the body ends. -/
theorem ensuring {body body' : Routine α} {cleanup : Routine Unit}
    (inner : Upholds words holds permits α body body')
    (final : Upholds words holds permits Unit cleanup cleanup)
    (grows : Leaves Session.Advances Unit cleanup cleanup) :
    Upholds words holds permits α (ensuring body cleanup) (Routine.ensuring body' cleanup) := by
  intro session under
  have upheld := inner session under
  cases result : body session with
  | ok value mid =>
    rw [result] at upheld
    rw [ensuring_ok result]
    exact final.bind (fun _ => pure value) mid upheld
  | error failure mid =>
    rw [result] at upheld
    have cleaned := final mid upheld.1
    have grown := (grows mid).store
    rw [ensuring_error result]
    cases last : cleanup mid with
    | ok done left =>
      rw [last] at cleaned grown
      rw [bind_ok last]
      exact ⟨cleaned, law.grows grown upheld.2⟩
    | error other left =>
      rw [last] at cleaned
      rw [bind_error last]
      exact cleaned

/-- Scopes that are left over when the stack runs out are left as well. -/
theorem guarded {body body' : Routine α} (inner : Upholds words holds permits α body body') :
    Upholds words holds permits α (guarded body) (Routine.guarded body') := by
  intro session under
  have upheld := inner session under
  unfold Routine.guarded
  split
  · next left exhausted =>
    rw [exhausted] at upheld
    split
    · exact ⟨upheld.1.congr rfl rfl, law.calls rfl _⟩
    · next failure shallow =>
      refine ⟨upheld.1, law.calls ?_ _⟩
      unfold Scopes.unwind at shallow
      split at shallow <;> cases shallow
      rfl
  · exact upheld

/-! ### Evaluation -/

section Calls

variable {stack : EvalStack} {room : Nat} {calls : Calls}

theorem reach (stack : EvalStack) (room : Nat) (moment : Moment) :
    Upholds words holds permits Unit (stack.reach room moment) (stack.reach room moment) := by
  intro session under
  rw [CallStack.reach_eq]
  split
  · exact ⟨under, law.calls rfl _⟩
  · exact under

theorem enforceLimit : Upholds words holds permits Unit enforceLimit enforceLimit := by
  intro session under
  rw [enforceLimit_eq]
  split
  · exact ⟨under.congr rfl rfl, law.calls rfl _⟩
  · exact under

theorem tick (checks : calls.reach = stack.reach room) :
    Upholds words holds permits Unit calls.tick calls.tick := by
  have counting : Upholds words holds permits Unit countStep countStep :=
    of_ok fun session => ⟨(), { session with steps := session.steps + 1 }, rfl, rfl, rfl⟩
  have checking := reach law stack room .counted
  rw [← checks] at checking
  exact counting.bind fun _ => checking.bind fun _ => enforceLimit law

theorem makeFrame (parent : Option Handle) :
    Upholds words holds permits (Handle × Option Handle) (makeFrame parent)
      (Routine.makeFrame parent) := by
  intro session under
  cases found : session.scopes.parentFor parent with
  | ok link =>
    rw [makeFrame_ok found]
    exact under.congr rfl rfl
  | error failure =>
    rw [makeFrame_error found]
    refine ⟨under, law.calls (Failure.isOfCalls_of_isOrdinary ?_) _⟩
    exact session.scopes.parentFor_failsOrdinarily parent failure found

theorem enterScope (checks : calls.reach = stack.reach room) (parent : Handle) :
    Upholds words holds permits Unit (calls.enterScope parent) (calls.enterScope parent) := by
  have checking := reach law stack room
  rw [← checks] at checking
  apply (checking .entering).bind
  intro _
  apply (makeFrame law (some parent)).bind
  intro made
  have activating : Upholds words holds permits Unit (activate made.1) (activate made.1) :=
    of_ok fun _ => ⟨_, _, rfl, rfl, rfl⟩
  refine (checking .entering).bind fun _ => activating.bind fun _ => ?_
  exact (checking .entered).bind fun _ => of_ok fun _ => ⟨_, _, rfl, rfl, rfl⟩

theorem leave : Upholds words holds permits Handle leave Routine.leave := by
  intro session under
  by_cases few : session.scopes.active.length ≤ 1
  · rw [leave_of_few few]
    exact ⟨under, law.calls rfl _⟩
  · rcases shape : session.scopes.active with _ | ⟨scope, _ | ⟨next, outer⟩⟩
    · exact absurd (shape ▸ Nat.zero_le 1) few
    · exact absurd (shape ▸ Nat.le_refl 1) few
    · rw [leave_eq shape]
      exact under.congr rfl rfl

theorem exitScope (checks : calls.reach = stack.reach room) :
    Upholds words holds permits Unit calls.exitScope calls.exitScope := by
  have checking := reach law stack room
  rw [← checks] at checking
  refine (checking .leaving).bind fun _ => (leave law).bind fun _ => ?_
  exact (checking .left).bind fun _ => of_ok fun _ => ⟨_, _, rfl, rfl, rfl⟩

/-- A body run in a scope of its own upholds the regime if it does so outside. -/
theorem within (checks : calls.reach = stack.reach room) (parent : Handle)
    {body body' : Routine α} (inner : Upholds words holds permits α body body') :
    Upholds words holds permits α (calls.within parent body) (calls.within parent body') := by
  have reading : Upholds words holds permits Session get get :=
    of_ok fun session => ⟨session, session, rfl, rfl, rfl⟩
  refine (enterScope law checks parent).bind fun _ => reading.bind fun _ => ?_
  have reporting (event : Event) : Upholds words holds permits Unit (report event) (report event) :=
    of_ok fun _ => ⟨_, _, rfl, rfl, rfl⟩
  exact (reporting _).bind fun _ =>
    ensuring law inner (exitScope law checks)
      (Leaves.exitScope HoldsOfChanges.advances.quiet checks)

/-- All that an evaluator does between its recursive calls upholds the regime. -/
theorem governedEvaluation (stack : EvalStack) :
    GovernedEvaluation stack stack.reach (fun _ => throw .stackExhausted) holds offers
      (Upholds words holds permits) where
  toGoverned := governed law
  reach := reach law stack
  exhausted _ := throwing law rfl
  tick _ _ _ checks checks' := by
    have upheld := tick law checks
    exact fun session under => upheld session under
  within _ _ _ checks _ _ parent _ _ inner := by
    have upheld := within law checks parent inner
    exact fun session under => upheld session under

/-- Evaluation upholds the regime, on any stack and of any expression. -/
theorem evaluate (stack : EvalStack) (room : Nat) (expr : Handle) :
    Upholds words holds permits Handle (evaluate stack room expr)
      (ScopedLisp.evaluate stack room expr) :=
  (governedEvaluation law stack).evaluate room expr

end Calls

end Primitives

end Upholds

end ScopedLisp
