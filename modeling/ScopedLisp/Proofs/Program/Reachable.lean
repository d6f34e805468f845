import ScopedLisp.Proofs.Eval.Safety
import ScopedLisp.Proofs.Program.Exhaustion
import ScopedLisp.Session.Report

/-!
# Reachable sessions

Every session that arises from a new one by evaluating source texts and data is well-formed,
however those evaluations ended. In such a session no further evaluation, and no printing of an
object or of the session, fails with a fault.
-/

namespace ScopedLisp

open Routine

section Embedding

variable {session : Session}

/-! ### Placing data in the heap -/

/-- Interning a name gives a symbol that was issued, in a session that is well-formed still. -/
theorem internSymbol_safe (wf : session.WellFormed) (name : String) :
    Safe session (internSymbol name) fun h left =>
      h.IssuedBefore .symbols left.store.symbols.owner left.store.symbols.size := by
  have grown := Store.WellFormed.intern_extends session.store name
  exact ⟨wf.grow grown, ⟨grown, rfl, Nat.le_refl _⟩,
    Symbols.issued_of_name (session.store.symbols.name_intern name)⟩

theorem insertText_safe (wf : session.WellFormed) (text : String) :
    Safe session (insertText text) fun h left =>
      h.IssuedBefore .texts left.store.texts.owner left.store.texts.size := by
  have grown := Store.WellFormed.enter_extends session.store text
  exact ⟨wf.grow grown, ⟨grown, rfl, Nat.le_refl _⟩,
    Texts.issued_of_get (session.store.texts.get_insert text)⟩

/-- A list is made safely of stored items and a stored tail. -/
theorem embeddedList_safe (wf : session.WellFormed) {items : List Handle} {tail : Option Handle}
    (all_held : ∀ item ∈ items, session.store.Holds item)
    (tail_held : ∀ last, tail = some last → session.store.Holds last) :
    Safe session (Routine.allocateList items tail) Yields := by
  induction items with
  | nil =>
    refine ⟨wf, .refl session, ?_⟩
    cases tail with
    | none => exact wf.store.nil_holds
    | some last => exact tail_held last rfl
  | cons item rest ih =>
    obtain ⟨first, others⟩ := List.forall_mem_cons.mp all_held
    rw [allocateList_cons]
    apply (ih others).bind
    intro longer mid wf grown longer_held
    exact .allocateData wf ⟨grown.holds first, longer_held⟩ rfl

/-- An atom is embedded safely, as a reserved word or as a symbol. -/
theorem atom_safe (wf : session.WellFormed) (name : String) :
    Safe session (embedded (.atom name)) Yields := by
  rw [embedded, internAtom, bind_assoc]
  apply Safe.inspect_bind wf (.ok _)
  intro reserved found
  cases found
  split
  · next record reserved =>
    rcases Vocabulary.classify_eq reserved with rfl | rfl
    · exact .allocateData wf trivial rfl
    · exact .allocateData wf trivial rfl
  · rw [bind_assoc]
    apply (internSymbol_safe wf name).bind
    intro symbol mid wf _ issued
    exact .allocateData wf issued rfl

end Embedding

mutual

/-- Any datum is embedded safely: a stored object is made of it, or a value from outside is
refused. -/
theorem embedded_safe {session : Session} (wf : session.WellFormed) (datum : Datum) :
    Safe session (embedded datum) Yields := by
  match datum with
  | .list items =>
    rw [embedded]
    apply (embeddedAll_safe wf items).bind
    intro handles mid wf _ all_held
    exact embeddedList_safe wf all_held nofun
  | .dotted items tail =>
    rw [embedded]
    apply (embeddedAll_safe wf items).bind
    intro handles mid wf _ all_held
    apply (embedded_safe wf tail).bind
    intro last left wf grown last_held
    exact embeddedList_safe wf (fun h member => grown.holds (all_held h member))
      (by rintro _ ⟨⟩; exact last_held)
  | .atom name => exact atom_safe wf name
  | .integer _ | .boolean _ | .character _ =>
    rw [embedded]
    exact .allocateData wf trivial rfl
  | .string text =>
    rw [embedded]
    apply (insertText_safe wf text).bind
    intro h mid wf _ issued
    exact .allocateData wf issued rfl
  | .foreign value =>
    rw [embedded]
    cases shown : value.display with
    | ok text => exact Safe.fail wf rfl
    | error failure =>
      exact Safe.fail wf (value.display_failsWithin Unshown.isSafe_failure failure shown)

theorem embeddedAll_safe {session : Session} (wf : session.WellFormed) (items : List Datum) :
    Safe session (embeddedAll items) fun handles left =>
      ∀ h ∈ handles, left.store.Holds h := by
  match items with
  | [] =>
    rw [embeddedAll]
    exact .pure wf (List.forall_mem_nil _)
  | datum :: rest =>
    rw [embeddedAll]
    apply (embedded_safe wf datum).bind
    intro h mid wf _ held
    apply (embeddedAll_safe wf rest).bind
    intro handles left wf grown all_held
    exact .pure wf (List.forall_mem_cons.mpr ⟨grown.holds held, all_held⟩)

end

/-! ### Calls on the interpreter -/

section Programs

variable {session : Session} {α : Type}

/-- Guarding a body keeps it safe. What the guard checks holds because the body restores the
scopes. -/
theorem guarded_safe (wf : session.WellFormed) {stack : EvalStack} {body : Routine α}
    {goal : α → Session → Prop} (inner : Safe session body goal)
    (restores : Restores stack session.scopes.active (body session)) :
    Safe session (guarded body) goal := by
  unfold Safe at inner ⊢
  by_cases exhausted : ∃ left, body session = .error .stackExhausted left
  · obtain ⟨left, exhausted⟩ := exhausted
    rw [exhausted] at inner
    obtain ⟨left_wf, grown, _⟩ := inner
    rw [guarded_of_exhausted wf.entered restores exhausted]
    refine ⟨left_wf.withActive wf.entered fun scope member => ?_, ?_, rfl⟩
    · exact grown.scope_holds (wf.active scope member)
    · exact grown.trans ⟨.refl _, rfl, Nat.le_refl _⟩
  · rw [guarded_of_other (not_exists.mp exhausted)]
    exact inner

/-- Evaluating a stored object is safe on any host. -/
theorem evaluateAt_safe (wf : session.WellFormed) (host : Host) {expr : Handle}
    (held : session.store.Holds expr) : Safe session (evaluateAt host expr) Yields :=
  guarded_safe wf (evaluate_safe _ _ wf held) (evaluate_restores _ _ expr wf.entered)

/-- Embedding and evaluating a datum is safe on any host. -/
theorem evaluateDatum_safe (wf : session.WellFormed) (host : Host) (datum : Datum) :
    Safe session (evaluateDatum host datum) Yields := by
  unfold evaluateDatum
  rw [embed_eq_embedded]
  apply (embedded_safe wf datum).bind
  intro expr mid wf _ held
  exact evaluateAt_safe wf host held

/-- Reading the next datum of a source is safe, and leaves a rest that ends as plainly. -/
theorem readNext_safe (wf : session.WellFormed) (host : Host) {stream : TokenStream}
    (plain : stream.EndsPlainly) :
    Safe session (readNext host stream) fun next _ =>
      ∀ datum left, next = some (datum, left) → left.EndsPlainly := by
  obtain ⟨_, well⟩ := Reader.datum?_alike (.refl host.reading) stream plain
  unfold readNext
  cases result : Reader.datum? host.reading stream with
  | ok datum left =>
    rw [result] at well
    refine ⟨wf, .refl session, ?_⟩
    rintro found rest same
    cases datum <;> cases same
    exact well
  | error failure left =>
    rw [result] at well
    have safe : failure.isSafe = true := by
      rcases well with rfl | ofText
      · rfl
      · cases failure <;> first | rfl | cases ofText
    exact guarded_safe wf (.fail wf safe) (restores_of_reading host.evaluating well)

/-- Evaluating what a stream holds is safe. The induction is on the rounds that are left. -/
theorem evaluateStream_safe (wf : session.WellFormed) (host : Host) (rounds forms : Nat)
    {stream : TokenStream} (plain : stream.EndsPlainly) {result : Handle}
    (held : session.store.Holds result) :
    Safe session (evaluateStream host rounds forms stream result) fun ending left =>
      left.store.Holds ending.2 := by
  induction rounds generalizing session forms stream result with
  | zero => exact .pure wf held
  | succ rounds ih =>
    apply (readNext_safe wf host plain).bind
    intro found mid wf grown later_plain
    cases found with
    | none => exact .pure wf (grown.holds held)
    | some next =>
      obtain ⟨datum, left⟩ := next
      apply (evaluateDatum_safe wf host datum).bind
      intro value last wf _ value_held
      exact ih wf _ (later_plain datum left rfl) value_held

/-- Evaluating a source is safe, whatever text it is. -/
theorem evaluateSource_safe (wf : session.WellFormed) (host : Host) (source : String) :
    Safe session (evaluateSource host source) Yields := by
  have plain := Token.scanFrom_endsPlainly 0 source.toList
  apply (Safe.nil wf).bind
  intro empty mid wf _ empty_held
  apply (evaluateStream_safe wf host _ 0 plain empty_held).bind
  rintro ⟨forms, value⟩ left wf _ held
  exact ⟨wf.congr rfl rfl, .of_eq rfl rfl, held⟩

end Programs

/-! ### Reports -/

theorem FailsWithin.mapM {allowed : Failure → Bool} {α β : Type} {f : α → Except Failure β}
    {items : List α} (each : ∀ item ∈ items, FailsWithin allowed (f item)) :
    FailsWithin allowed (items.mapM f) := by
  induction items with
  | nil => exact .ok []
  | cons item rest ih =>
    obtain ⟨first, others⟩ := List.forall_mem_cons.mp each
    rw [List.mapM_cons]
    exact first.bind fun _ => (ih others).bind fun _ => .ok _

/-- Showing a record fails, if at all, without a fault. -/
theorem Record.display_failsSafely (record : Record) : FailsSafely record.display := by
  cases record with
  | integer value => exact (Record.digits_failsWithin rfl value).bind fun _ => .ok _
  | foreign value => exact Record.digits_failsWithin rfl value
  | _ => exact .ok _

namespace Session.WellFormed

variable {session : Session}

/-- The line of the report on a binding of a well-formed session. -/
theorem bindingLine_failsSafely (wf : session.WellFormed) {symbol value : Handle}
    (issued : symbol.IssuedBefore .symbols session.store.symbols.owner session.store.symbols.size)
    (held : session.store.Holds value) : FailsSafely (session.bindingLine symbol value) := by
  obtain ⟨name, named⟩ := Store.name_eq session.store issued
  exact .after_ok named ((wf.store.render_failsSafely held).bind fun _ => .ok _)

/-- Describing the state of a well-formed session fails, if at all, without a fault. -/
theorem describeState_failsSafely (wf : session.WellFormed) :
    FailsSafely session.describeState := by
  obtain ⟨complete, sound⟩ := wf.chain_sound
  have objects : FailsSafely session.objectLines :=
    FailsWithin.mapM fun _ _ => (Record.display_failsSafely _).bind fun _ => .ok _
  have lines : ∀ entry ∈ session.scopes.chain.items,
      FailsSafely (session.scopeLines entry.1 entry.2) := by
    intro entry member
    obtain ⟨_, _, refers⟩ := sound entry member
    refine FailsWithin.bind (FailsWithin.mapM ?_) fun _ => .ok _
    intro binding among
    obtain ⟨issued, held⟩ := refers.bindings binding among
    exact wf.bindingLine_failsSafely issued held
  have all : FailsSafely session.scopes.chain.all := by
    rw [Listing.all, complete]
    exact .ok _
  exact objects.bind fun _ => (FailsWithin.mapM lines).bind fun _ => all.bind fun _ => .ok _

end Session.WellFormed

/-! ### Reachable sessions -/

/-- The sessions that arise from a new one by evaluating source texts and data on any machines,
whatever the outcome. -/
inductive Session.Reachable : Session → Prop where
  | start (vocabulary : Vocabulary) (stepLimit : Int) : Reachable (.start vocabulary stepLimit)
  | source {session : Session} (before : Reachable session) (host : Host) (source : String) :
      Reachable ((evaluateSource host source).after session)
  | datum {session : Session} (before : Reachable session) (host : Host) (datum : Datum) :
      Reachable ((evaluateDatum host datum).after session)

/-- A session is well-formed when it starts. -/
theorem start_wellFormed (vocabulary : Vocabulary) (stepLimit : Int) :
    (Session.start vocabulary stepLimit).WellFormed := by
  have global : (⟨.scopes, 0, Session.owner⟩ : Handle).IssuedBefore .scopes Session.owner 1 :=
    ⟨0, Nat.one_pos, rfl⟩
  have only_nil {i : Nat} {record : Record} (inside : #[Record.nil][i]? = some record) :
      i = 0 ∧ record = .nil := by
    cases i with
    | zero => exact ⟨rfl, (Option.some.inj inside).symm⟩
    | succ i => cases inside
  refine ⟨⟨?_, fun i => ⟨fun inside => (only_nil inside).1, fun same => same ▸ rfl⟩⟩, ?_, ?_,
    List.cons_ne_nil _ _, List.forall_mem_singleton.mpr global⟩
  · intro i record inside
    obtain ⟨_, rfl⟩ := only_nil inside
    trivial
  · intro h params body scope stored
    obtain ⟨i, _, _, inside⟩ := Heap.exists_index_of_get stored
    cases (only_nil inside).2
  · intro i frame inside
    cases i with
    | zero =>
      cases inside
      refine ⟨?_, List.forall_mem_nil _⟩
      exact nofun
    | succ i => cases inside

theorem Safe.after {session : Session} {α : Type} {routine : Routine α}
    {goal : α → Session → Prop} (safe : Safe session routine goal) :
    (routine.after session).WellFormed ∧
      ∀ failure, routine.failure? session = some failure → failure.isSafe = true := by
  unfold Safe at safe
  unfold Routine.after Routine.failure?
  cases result : routine session with
  | ok value left =>
    rw [result] at safe
    exact ⟨safe.1, nofun⟩
  | error failure left =>
    rw [result] at safe
    exact ⟨safe.1, by rintro other ⟨⟩; exact safe.2.2⟩

/-- Every session that calls can lead to is well-formed. -/
theorem Session.Reachable.wellFormed {session : Session} (reachable : session.Reachable) :
    session.WellFormed := by
  induction reachable with
  | start vocabulary stepLimit => exact start_wellFormed vocabulary stepLimit
  | source _ host source ih => exact (evaluateSource_safe ih host source).after.1
  | datum _ host datum ih => exact (evaluateDatum_safe ih host datum).after.1

/-- Whatever was evaluated before, a session is well-formed, and nothing that is done with it ends
in a fault: no evaluation of a source text or a datum on any machine, no printing of an object
that it holds, and no report on it. -/
theorem reachable_session_sound (session : Session) (reachable : session.Reachable) :
    session.WellFormed ∧
      (∀ host source failure,
        (evaluateSource host source).failure? session = some failure → failure.isSafe = true) ∧
      (∀ host datum failure,
        (evaluateDatum host datum).failure? session = some failure → failure.isSafe = true) ∧
      (∀ h, session.store.heap.owns h = true →
        FailsSafely (session.store.render h) ∧ FailsSafely (session.store.describe h)) ∧
      FailsSafely session.describeState := by
  have wf := reachable.wellFormed
  refine ⟨wf, fun host source => (evaluateSource_safe wf host source).after.2,
    fun host datum => (evaluateDatum_safe wf host datum).after.2, fun h owned => ?_,
    wf.describeState_failsSafely⟩
  have held : session.store.Holds h := Store.holds_of_owns owned
  exact ⟨wf.store.render_failsSafely held, wf.store.describe_failsSafely held⟩

/-- A session in which a procedure was called with too few arguments can still be reported on. -/
theorem reachable_session_sound_of_arityMismatch :
    let session := (evaluateSource .standard "((lambda (x y) x) 1)").after (.start .standard 0)
    session.Reachable ∧ session.WellFormed ∧ FailsSafely session.describeState := by
  have reachable := Session.Reachable.source (.start .standard 0) .standard "((lambda (x y) x) 1)"
  obtain ⟨wf, _, _, _, reported⟩ := reachable_session_sound _ reachable
  exact ⟨reachable, wf, reported⟩

end ScopedLisp
