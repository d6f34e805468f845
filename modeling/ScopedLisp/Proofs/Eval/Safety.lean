import ScopedLisp.Proofs.Eval.ScopeStack
import ScopedLisp.Proofs.Session.WellFormed

/-!
# Safety of evaluation

Evaluation of an issued object in a well-formed session leaves a well-formed session, and neither
it nor anything it calls ever fails with a fault: no handle is used that was not issued, no scope
is left that was not entered, no argument is missing that was counted, and no walk is given up.
`Safe` says this of a routine together with what it returns; the rules below derive it for each
form from its parts.
-/

namespace ScopedLisp

open Routine

/-- Of an ending: a well-formed session is left that extends `session`, a value meets the goal, and
a failure is a safe one. -/
def EndsSafely (session : Session) {α : Type} (goal : α → Session → Prop) : Ending α → Prop
  | .ok value left => left.WellFormed ∧ session.Extends left ∧ goal value left
  | .error failure left => left.WellFormed ∧ session.Extends left ∧ failure.isSafe = true

/-- Started in the session, the routine ends safely. -/
def Safe (session : Session) {α : Type} (routine : Routine α) (goal : α → Session → Prop) : Prop :=
  EndsSafely session goal (routine session)

/-- What ended safely in a session that has grown since has ended safely altogether. -/
theorem EndsSafely.trans {session mid : Session} {α : Type} {goal : α → Session → Prop}
    {ending : Ending α} (grown : session.Extends mid) (ends : EndsSafely mid goal ending) :
    EndsSafely session goal ending := by
  cases ending with
  | ok value left => exact ⟨ends.1, grown.trans ends.2.1, ends.2.2⟩
  | error failure left => exact ⟨ends.1, grown.trans ends.2.1, ends.2.2⟩

/-- The object that is returned was issued. -/
def Yields (h : Handle) (left : Session) : Prop := left.store.Holds h

/-! ### Rules -/

namespace Safe

variable {session : Session} {α β : Type} {goal : α → Session → Prop}

theorem pure (wf : session.WellFormed) {value : α} (met : goal value session) :
    Safe session (pure value) goal :=
  ⟨wf, .refl session, met⟩

theorem fail (wf : session.WellFormed) {failure : Failure} (safe : failure.isSafe = true) :
    Safe session (throw failure) goal :=
  ⟨wf, .refl session, safe⟩

/-- A safe routine may be followed by one that is safe wherever the first can end. -/
theorem bind {first : Routine α} {next : α → Routine β} {goal' : β → Session → Prop}
    (head : Safe session first goal)
    (tail : ∀ value mid, mid.WellFormed → session.Extends mid → goal value mid →
      Safe mid (next value) goal') : Safe session (first >>= next) goal' := by
  unfold Safe at head ⊢
  cases result : first session with
  | ok value mid =>
    rw [result] at head
    obtain ⟨wf, grown, met⟩ := head
    rw [bind_ok result]
    exact (tail value mid wf grown met).trans grown
  | error failure mid =>
    rw [result] at head
    rw [bind_error result]
    exact head

/-- What is asked of the result may be weakened, with the growth of the session at hand. -/
theorem imp {goal' : α → Session → Prop} {routine : Routine α} (safe : Safe session routine goal)
    (weaker : ∀ value left, session.Extends left → goal value left → goal' value left) :
    Safe session routine goal' := by
  unfold Safe at safe ⊢
  cases result : routine session with
  | ok value left =>
    rw [result] at safe
    exact ⟨safe.1, safe.2.1, weaker value left safe.2.1 safe.2.2⟩
  | error failure left =>
    rw [result] at safe
    exact safe

/-- Reading changes nothing, and what it gives is known. -/
theorem inspect (wf : session.WellFormed) {read : Store → Vocabulary → Except Failure α}
    (safely : FailsSafely (read session.store session.vocabulary)) :
    Safe session (inspect read) fun value left =>
      left = session ∧ read session.store session.vocabulary = .ok value := by
  unfold Safe
  cases found : read session.store session.vocabulary with
  | ok value =>
    rw [inspect_ok found]
    exact ⟨wf, .refl session, rfl, rfl⟩
  | error failure =>
    rw [inspect_error found]
    exact ⟨wf, .refl session, safely failure found⟩

/-- What follows a reading starts in the same session. -/
theorem inspect_bind (wf : session.WellFormed) {read : Store → Vocabulary → Except Failure α}
    {next : α → Routine β} {goal' : β → Session → Prop}
    (safely : FailsSafely (read session.store session.vocabulary))
    (tail : ∀ value, read session.store session.vocabulary = .ok value →
      Safe session (next value) goal') : Safe session (Routine.inspect read >>= next) goal' := by
  apply (inspect wf safely).bind
  rintro value _ _ _ ⟨rfl, found⟩
  exact tail value found

/-- An object that the session holds has a record to go on with. -/
theorem fetch_bind (wf : session.WellFormed) {h : Handle} (held : session.store.Holds h)
    {next : Record → Routine β} {goal' : β → Session → Prop}
    (tail : ∀ record, session.store.heap.get h = .ok record → Safe session (next record) goal') :
    Safe session (fetch h >>= next) goal' := by
  obtain ⟨record, stored⟩ := Heap.get_of_issued held
  have safely : FailsSafely (session.store.heap.get h) := by
    rw [stored]
    exact .ok record
  exact inspect_bind wf safely tail

/-- The elements of a list that the session holds are held by it too. -/
theorem elements_bind (wf : session.WellFormed) {h : Handle} (held : session.store.Holds h)
    {next : List Handle → Routine β} {goal' : β → Session → Prop}
    (tail : ∀ items, session.store.heap.elements h = .ok items →
      (∀ item ∈ items, session.store.Holds item) → Safe session (next items) goal') :
    Safe session (elements h >>= next) goal' :=
  inspect_bind wf (wf.store.elements_failsSafely held) fun items found =>
    tail items found (wf.store.chain_of_elements held found).2

theorem nil (wf : session.WellFormed) : Safe session nil Yields :=
  ⟨wf, .refl session, wf.store.nil_holds⟩

/-- A record that refers to what is held may be stored. A procedure needs its scope to be held as
well. -/
theorem allocate (wf : session.WellFormed) {record : Record}
    (below : record.RefersBelow session.store session.store.heap.size) (other : record ≠ .nil)
    (captured : ∀ {params body scope}, record = .procedure params body scope →
      session.scopes.Holds scope) : Safe session (allocate record) Yields :=
  ⟨wf.insert below other captured,
    ⟨Store.WellFormed.insert_extends session.store record, rfl, Nat.le_refl _⟩,
    Store.WellFormed.insert_holds session.store record⟩

/-- A record that is neither the empty list nor a procedure. -/
theorem allocateData (wf : session.WellFormed) {record : Record}
    (below : record.RefersBelow session.store session.store.heap.size)
    (data : record.isData = true) : Safe session (Routine.allocate record) Yields := by
  apply allocate wf below
  · rintro rfl
    cases data
  · rintro params body scope rfl
    cases data

/-- Writing a binding leaves every scope where it is. -/
theorem write_extends (place : Fin session.scopes.frames.size) (symbol value : Handle) :
    session.Extends { session with scopes := session.scopes.write place symbol value } := by
  refine ⟨.refl _, rfl, ?_⟩
  simp only [Scopes.write, Array.size_modify]
  exact Nat.le_refl _

section Symbols

variable {symbol value : Handle}
  (issued : symbol.IssuedBefore .symbols session.store.symbols.owner session.store.symbols.size)
include issued

/-- An issued symbol is looked up safely, and it stands for an object that is held. -/
theorem lookupSymbol (wf : session.WellFormed) : Safe session (lookupSymbol symbol) Yields := by
  obtain ⟨safely, held⟩ := Session.WellFormed.lookup_failsSafely issued wf
  unfold Safe
  cases found : session.scopes.lookup session.store.symbols.name symbol with
  | ok value =>
    rw [lookupSymbol_ok found]
    exact ⟨wf, .refl session, held found⟩
  | error failure =>
    rw [lookupSymbol_error found]
    exact ⟨wf, .refl session, safely failure found⟩

theorem bindSymbol (wf : session.WellFormed) (held : session.store.Holds value) :
    Safe session (bindSymbol symbol value) fun _ _ => True := by
  obtain ⟨place, found⟩ := wf.currentPlace_eq
  unfold Safe
  rw [bindSymbol_ok found]
  exact ⟨wf.write place issued held, write_extends place symbol value, trivial⟩

theorem assignSymbol (wf : session.WellFormed) (held : session.store.Holds value) :
    Safe session (assignSymbol symbol value) fun _ _ => True := by
  have safely := Session.WellFormed.bindingPlace_failsSafely issued wf
  unfold Safe
  cases found : session.scopes.bindingPlace session.store.symbols.name symbol with
  | ok place =>
    rw [assignSymbol_ok found]
    exact ⟨wf.write place issued held, write_extends place symbol value, trivial⟩
  | error failure =>
    rw [assignSymbol_error found]
    exact ⟨wf, .refl session, safely failure found⟩

end Symbols

theorem currentScope (wf : session.WellFormed) :
    Safe session currentScope fun scope left => left.scopes.Holds scope := by
  obtain ⟨scope, current, held⟩ := wf.current_eq
  unfold Safe
  rw [currentScope_ok current]
  exact ⟨wf, .refl session, held⟩

/-- Whatever the stack, a check of it leaves the session as it is. -/
theorem reach (wf : session.WellFormed) (stack : EvalStack) (room : Nat) (moment : Moment) :
    Safe session (stack.reach room moment) fun _ left => left = session := by
  unfold Safe
  rw [CallStack.reach_eq]
  by_cases early : stack.failsAt moment room session = true
  · rw [if_pos early]
    exact ⟨wf, .refl session, rfl⟩
  · rw [if_neg early]
    exact ⟨wf, .refl session, rfl⟩

theorem enforceLimit (wf : session.WellFormed) :
    Safe session enforceLimit fun _ _ => True := by
  unfold Safe
  rw [enforceLimit_eq]
  by_cases exceeded : session.stepLimit ≠ 0 ∧ session.stepLimit < session.steps
  · rw [if_pos exceeded]
    exact ⟨wf.congr rfl rfl, .of_eq rfl rfl, rfl⟩
  · rw [if_neg exceeded]
    exact ⟨wf, .refl session, trivial⟩

end Safe

/-! ### Nested calls -/

section Calls

variable {stack : EvalStack} {room : Nat} {session : Session} {α β : Type}

/-- What follows a check starts in the same session. -/
theorem Safe.reach_bind (wf : session.WellFormed) {moment : Moment} {next : Unit → Routine β}
    {goal : β → Session → Prop} (tail : Safe session (next ()) goal) :
    Safe session ((stack.callsWithin room).reach moment >>= next) goal := by
  apply (Safe.reach wf stack room moment).bind
  rintro _ _ _ _ rfl
  exact tail

theorem tick_safe (wf : session.WellFormed) :
    Safe session (stack.callsWithin room).tick fun _ _ => True := by
  have counting : Safe session countStep fun _ _ => True :=
    ⟨wf.congr rfl rfl, .of_eq rfl rfl, trivial⟩
  apply counting.bind
  intro _ mid wf _ _
  exact Safe.reach_bind wf (.enforceLimit wf)

theorem allocate_safe (wf : session.WellFormed) {record : Record}
    (below : record.RefersBelow session.store session.store.heap.size) (other : record ≠ .nil)
    (captured : ∀ {params body scope}, record = .procedure params body scope →
      session.scopes.Holds scope) :
    Safe session ((stack.callsWithin room).allocate record) Yields :=
  Safe.reach_bind wf (.allocate wf below other captured)

theorem allocateData_safe (wf : session.WellFormed) {record : Record}
    (below : record.RefersBelow session.store session.store.heap.size)
    (data : record.isData = true) :
    Safe session ((stack.callsWithin room).allocate record) Yields :=
  Safe.reach_bind wf (.allocateData wf below data)

/-- Two objects that are held may be joined. -/
theorem pair_safe (wf : session.WellFormed) {car cdr : Handle} (first : session.store.Holds car)
    (second : session.store.Holds cdr) :
    Safe session ((stack.callsWithin room).allocate (.pair car cdr)) Yields :=
  allocateData_safe wf ⟨first, second⟩ rfl

theorem allocateList_safe (wf : session.WellFormed) {rest : Handle} {items : List Handle}
    (held : session.store.Holds rest) (all_held : ∀ item ∈ items, session.store.Holds item) :
    Safe session ((stack.callsWithin room).allocateList rest items) Yields := by
  induction items generalizing session rest with
  | nil => exact .pure wf held
  | cons item earlier ih =>
    obtain ⟨first, others⟩ := List.forall_mem_cons.mp all_held
    apply (pair_safe wf first held).bind
    intro longer mid wf grown held
    exact ih wf held fun item member => grown.holds (others item member)

/-- Refusing an object with its description. -/
theorem refuse_safe (wf : session.WellFormed) {h : Handle} (held : session.store.Holds h)
    {cause : String → Failure} (safe : ∀ shown, (cause shown).isSafe = true)
    {goal : α → Session → Prop} :
    Safe session (do throw (cause (← (stack.callsWithin room).describe h))) goal := by
  have described : Safe session ((stack.callsWithin room).describe h) fun _ _ => True :=
    Safe.reach_bind wf <|
      (Safe.inspect wf (wf.store.describe_failsSafely held)).imp fun _ _ _ _ => trivial
  exact described.bind fun shown _ wf _ _ => .fail wf (safe shown)

section Symbols

variable {symbol value : Handle}
  (issued : symbol.IssuedBefore .symbols session.store.symbols.owner session.store.symbols.size)
include issued

theorem bindSymbol_safe (wf : session.WellFormed) (held : session.store.Holds value) :
    Safe session ((stack.callsWithin room).bindSymbol symbol value) fun _ _ => True :=
  Safe.reach_bind wf (.bindSymbol issued wf held)

theorem assignSymbol_safe (wf : session.WellFormed) (held : session.store.Holds value) :
    Safe session ((stack.callsWithin room).assignSymbol symbol value) fun _ _ => True :=
  Safe.reach_bind wf (.assignSymbol issued wf held)

end Symbols

/-! ### Binding parameters -/

/-- The arguments do not run out before the parameters do: both chains lose a pair at a time, and
that of the arguments has as many. -/
theorem bindFrom_safe (wf : session.WellFormed) {steps : Nat} {params args last last' : Handle}
    {cars items : List Handle} {record : Record}
    (required : session.store.heap.Chain params cars last record)
    (supplied : session.store.heap.Chain args items last' .nil)
    (enough : cars.length ≤ items.length) (short : cars.length < steps)
    (params_held : session.store.Holds params) (args_held : session.store.Holds args) :
    Safe session ((stack.callsWithin room).bindFrom steps params args) fun _ _ => True := by
  induction steps generalizing session params args cars items with
  | zero => cases short
  | succ steps ih =>
    apply Safe.fetch_bind wf params_held
    intro found stored
    cases required with
    | last ends final =>
      cases ends.symm.trans stored
      cases record with
      | nil => exact .pure wf trivial
      | symbol symbol => exact bindSymbol_safe (wf.store.symbol_issued stored) wf args_held
      | pair car cdr => exact absurd rfl (final car cdr)
      | _ => exact refuse_safe wf params_held fun _ => rfl
    | @link _ car cdr _ cars _ link required =>
      cases link.symm.trans stored
      obtain ⟨car_held, cdr_held⟩ := wf.store.pair_holds stored
      apply Safe.fetch_bind wf car_held
      intro parameter first
      cases parameter with
      | symbol symbol =>
        cases supplied with
        | last _ _ => cases enough
        | @link _ argument rest _ items _ link supplied =>
          obtain ⟨argument_held, rest_held⟩ := wf.store.pair_holds link
          apply Safe.fetch_bind wf args_held
          intro given second
          cases link.symm.trans second
          have issued := wf.store.symbol_issued first
          apply (bindSymbol_safe issued wf argument_held).bind
          intro _ mid wf grown _
          exact ih wf (required.mono grown.store.heap) (supplied.mono grown.store.heap)
            (Nat.le_of_succ_le_succ enough) (Nat.lt_of_succ_lt_succ short) (grown.holds cdr_held)
            (grown.holds rest_held)
      | _ => exact refuse_safe wf car_held fun _ => rfl

/-- Parameters are bound safely, be the numbers of parameters and arguments as they may. -/
theorem bindParameters_safe (wf : session.WellFormed) {params args : Handle}
    (params_held : session.store.Holds params) (args_held : session.store.Holds args) :
    Safe session ((stack.callsWithin room).bindParameters params args) fun _ _ => True := by
  obtain ⟨cars, last, record, variadic, required, short, shape⟩ :=
    wf.store.parameterShape_eq params_held
  refine Safe.reach_bind wf (Safe.inspect_bind wf (by rw [shape]; exact .ok _) ?_)
  intro counts found
  cases shape.symm.trans found
  apply Safe.elements_bind wf args_held
  intro items listed _
  obtain ⟨⟨last', supplied⟩, _⟩ := wf.store.chain_of_elements args_held listed
  dsimp only
  split
  · exact .fail wf rfl
  · next agree =>
    apply Safe.inspect_bind wf (.ok _)
    intro size found
    cases found
    exact bindFrom_safe wf required supplied (Nat.le_of_not_lt fun fewer => agree (.inl fewer))
      (Nat.lt_succ_of_lt short) params_held args_held

/-! ### Making procedures -/

/-- What a reserved word stands for refers to nothing. -/
theorem allocateWord_safe (wf : session.WellFormed) {words : Vocabulary} {name : String}
    {record : Record} (reserved : words.classify name = some record) :
    Safe session ((stack.callsWithin room).allocate record) Yields := by
  rcases Vocabulary.classify_eq reserved with rfl | rfl
  · exact allocateData_safe wf trivial rfl
  · exact allocateData_safe wf trivial rfl

/-- Several body forms become one expression that is held. -/
theorem sequenced_safe (wf : session.WellFormed) (form : String) {forms : Handle}
    (held : session.store.Holds forms) :
    Safe session ((stack.callsWithin room).sequenced form forms) Yields := by
  apply Safe.elements_bind wf held
  intro items _ all_held
  match items with
  | [] => exact .nil wf
  | [only] => exact .pure wf (all_held only List.mem_cons_self)
  | _ :: _ :: _ =>
    apply Safe.inspect_bind wf (.ok _)
    intro reserved found
    cases found
    split
    · next word reserved =>
      apply (allocateWord_safe wf reserved).bind
      intro head mid wf grown head_held
      exact pair_safe wf head_held (grown.holds held)
    · exact .fail wf rfl

/-- A procedure that is made captures a scope that is held. -/
theorem makeProcedure_safe (wf : session.WellFormed) (form : String) {params forms : Handle}
    (params_held : session.store.Holds params) (forms_held : session.store.Holds forms) :
    Safe session ((stack.callsWithin room).makeProcedure form params forms) Yields := by
  apply Safe.inspect_bind wf (wf.store.checkParameters_failsSafely form params_held)
  intro _ passed
  apply (sequenced_safe wf form forms_held).bind
  intro body mid wf grown body_held
  apply (Safe.currentScope wf).bind
  intro scope left wf later scope_held
  have params_later := later.holds (grown.holds params_held)
  have body_later := later.holds body_held
  have checked := (grown.trans later).store.checkParameters passed
  refine allocate_safe wf ⟨params_later, body_later, checked⟩ nofun ?_
  intro params body scope same
  cases same
  exact scope_held

/-- The shorthand for a definition makes a procedure of a part of the form that it is written in. -/
theorem defineProcedure_safe (wf : session.WellFormed) {rest name params target body : Handle}
    (link : session.store.heap.get rest = .ok (.pair target body))
    (name_held : session.store.Holds name) (params_held : session.store.Holds params)
    (held : session.store.Holds rest) :
    Safe session (SpecialForm.defineProcedure (stack.callsWithin room) rest name params)
      Yields := by
  apply Safe.fetch_bind wf name_held
  intro record stored
  cases record with
  | symbol symbol =>
    apply Safe.fetch_bind wf held
    intro operands found
    cases link.symm.trans found
    have issued := wf.store.symbol_issued stored
    have body_held := (wf.store.pair_holds link).2
    apply (makeProcedure_safe wf _ params_held body_held).bind
    intro value mid wf grown value_held
    apply (bindSymbol_safe (grown.store.symbol_issued issued) wf value_held).bind
    intro _ left wf later _
    exact .pure wf (later.holds (grown.holds name_held))
  | _ => exact refuse_safe wf name_held fun _ => rfl

/-! ### Entering and leaving -/

/-- A frame under a scope that is held is held itself, and it is not entered by that. -/
theorem makeFrame_safe (wf : session.WellFormed) {parent : Handle}
    (held : session.scopes.Holds parent) :
    Safe session (makeFrame (some parent)) fun made left =>
      left.scopes.Holds made.1 ∧ left.scopes.active = session.scopes.active := by
  obtain ⟨place, position⟩ := Session.WellFormed.position_eq held
  have found : session.scopes.parentFor (some parent) = .ok (some parent) := by
    simp only [Scopes.parentFor, position, Except.map]
  unfold Safe
  rw [makeFrame_ok found]
  refine ⟨wf.addFrame fun same => Option.some.inj same ▸ held, ⟨.refl _, rfl, ?_⟩, ?_, rfl⟩
  · simp only [Scopes.addFrame, Array.size_push]
    exact Nat.le_succ _
  · refine ⟨session.scopes.frames.size, ?_, rfl⟩
    simp only [Scopes.addFrame, Array.size_push]
    exact Nat.lt_succ_self _

theorem activate_safe (wf : session.WellFormed) {scope : Handle}
    (held : session.scopes.Holds scope) :
    Safe session (activate scope) fun _ left =>
      left.scopes.active = scope :: session.scopes.active :=
  ⟨wf.withActive (List.cons_ne_nil _ _) (List.forall_mem_cons.mpr ⟨held, wf.active⟩),
    ⟨.refl _, rfl, Nat.le_refl _⟩, rfl⟩

/-- Entering puts one more scope on top of the active ones, whatever is reported. -/
theorem enterScope_safe (wf : session.WellFormed) {parent : Handle}
    (held : session.scopes.Holds parent) :
    Safe session ((stack.callsWithin room).enterScope parent) fun _ left =>
      ∃ scope, left.scopes.active = scope :: session.scopes.active := by
  refine Safe.reach_bind wf ((makeFrame_safe wf held).bind ?_)
  rintro ⟨scope, link⟩ mid wf _ ⟨made, same⟩
  refine Safe.reach_bind wf ((activate_safe wf made).bind fun _ left wf _ shape => ?_)
  exact Safe.reach_bind wf ⟨wf.congr rfl rfl, .of_eq rfl rfl, scope, same ▸ shape⟩

/-- Leaving is safe while at least two scopes are active. -/
theorem exitScope_safe (wf : session.WellFormed) {scope next : Handle} {outer : List Handle}
    (two : session.scopes.active = scope :: next :: outer) :
    Safe session (stack.callsWithin room).exitScope fun _ _ => True := by
  have below : ∀ other ∈ next :: outer, session.scopes.Holds other := fun other member =>
    wf.active other (two ▸ List.mem_cons_of_mem scope member)
  have leaving : Safe session leave fun _ _ => True := by
    unfold Safe
    rw [leave_eq two]
    exact ⟨wf.withActive (List.cons_ne_nil _ _) below, ⟨.refl _, rfl, Nat.le_refl _⟩, trivial⟩
  refine Safe.reach_bind wf (leaving.bind fun _ left wf _ _ => ?_)
  exact Safe.reach_bind wf ⟨wf.congr rfl rfl, .of_eq rfl rfl, trivial⟩

/-- A body that keeps the scopes below its own leaves one to go back to. -/
theorem ensuring_safe {scope : Handle} {kept : List Handle} (some_kept : kept ≠ [])
    {body : Routine Handle} (inner : Safe session body Yields)
    (restores : Restores stack (scope :: kept) (body session)) :
    Safe session (ensuring body (stack.callsWithin room).exitScope) Yields := by
  unfold Safe at inner ⊢
  cases result : body session with
  | ok value left =>
    rw [result] at inner restores
    obtain ⟨wf, grown, held⟩ := inner
    obtain ⟨next, outer, rfl⟩ := List.exists_cons_of_ne_nil some_kept
    rw [ensuring_ok result]
    apply EndsSafely.trans grown
    exact (exitScope_safe wf restores).bind fun _ final wf later _ => .pure wf (later.holds held)
  | error failure left =>
    rw [result] at inner restores
    obtain ⟨wf, grown, safe⟩ := inner
    obtain ⟨first, next, outer, shape, _, _⟩ := leaving_above some_kept restores.2.1
    rw [ensuring_error result]
    apply EndsSafely.trans grown
    exact (exitScope_safe wf shape).bind fun _ final wf _ _ => .fail wf safe

/-! ### Evaluation one call deeper -/

/-- Evaluations that have `room` left are safe. -/
def SafeWithin (stack : EvalStack) (room : Nat) : Prop :=
  ∀ {session : Session} {expr : Handle}, session.WellFormed → session.store.Holds expr →
    Safe session (evaluate stack room expr) Yields

section Forms

variable (inner : SafeWithin stack room)
include inner

/-- A call evaluates the body one call deeper, in a scope of its own. -/
theorem applyProcedure_safe (wf : session.WellFormed) {params body scope args : Handle}
    (params_held : session.store.Holds params) (body_held : session.store.Holds body)
    (scope_held : session.scopes.Holds scope) (args_held : session.store.Holds args) :
    Safe session ((stack.callsWithin room).applyProcedure params body scope args) Yields := by
  let calls := stack.callsWithin room
  let running : Routine Handle := do
    calls.bindParameters params args
    calls.evaluate body
  have keeps : KeepsScopes stack Handle running running := by
    have law := (KeepsScopes.respectful stack).governed
    have related := KeepsScopes.calls stack room
    exact law.bind (related.bindParameters law params args) fun _ => related.evaluate body
  have running_safe {mid : Session} (wf : mid.WellFormed) (grown : session.Extends mid) :
      Safe mid running Yields := by
    apply (bindParameters_safe wf (grown.holds params_held) (grown.holds args_held)).bind
    intro _ left wf later _
    exact inner wf (later.holds (grown.holds body_held))
  have some_kept := wf.entered
  apply (enterScope_safe wf scope_held).bind
  rintro _ mid wf grown ⟨own, shape⟩
  let called : Session :=
    { mid with journal := mid.journal.push (.procedureApplied mid.scopes.depth) }
  have called_wf : called.WellFormed := wf.congr rfl rfl
  have recorded : mid.Extends called := .of_eq rfl rfl
  have restores := (keeps called called_wf.entered).1
  rw [show called.scopes.active = own :: session.scopes.active from shape] at restores
  have body_safe := running_safe called_wf (grown.trans recorded)
  exact EndsSafely.trans recorded (ensuring_safe some_kept body_safe restores)

/-- All arguments are evaluated in turn, and all of their values are held. -/
theorem evaluateEach_safe (wf : session.WellFormed) {steps : Nat} {h : Handle}
    {values : List Handle} (issued : h.IssuedBefore .objects session.store.heap.owner steps)
    (held : session.store.Holds h) (all_held : ∀ value ∈ values, session.store.Holds value) :
    Safe session ((stack.callsWithin room).evaluateEach steps h values) fun values left =>
      ∀ value ∈ values, left.store.Holds value := by
  induction steps generalizing session h values with
  | zero =>
    obtain ⟨_, below, _⟩ := issued
    cases below
  | succ steps ih =>
    refine Safe.reach_bind wf (Safe.fetch_bind wf held fun record stored => ?_)
    cases record with
    | pair car cdr =>
      obtain ⟨i, older, _, _, cdr_issued⟩ := wf.store.refers_of_issued issued stored
      obtain ⟨car_held, cdr_held⟩ := wf.store.pair_holds stored
      apply Safe.bind (inner wf car_held)
      intro value mid wf grown value_held
      have before := grown.store.heap.issued (cdr_issued.mono older)
      refine ih wf before (grown.holds cdr_held) (List.forall_mem_cons.mpr ⟨value_held, ?_⟩)
      exact fun other member => grown.holds (all_held other member)
    | nil => exact .pure wf all_held
    | _ => exact .fail wf rfl

theorem evaluateArguments_safe (wf : session.WellFormed) {args : Handle}
    (held : session.store.Holds args) :
    Safe session ((stack.callsWithin room).evaluateArguments args) Yields := by
  apply Safe.inspect_bind wf (.ok _)
  intro size found
  cases found
  have issued : args.IssuedBefore .objects session.store.heap.owner
      (session.store.heap.size + 1 + Calls.furtherRounds) := held.mono (by omega)
  apply (evaluateEach_safe inner wf issued held (List.forall_mem_nil _)).bind
  intro values mid wf _ all_held
  apply (Safe.nil wf).bind
  intro empty left wf grown empty_held
  exact allocateList_safe wf empty_held fun value member => grown.holds (all_held value member)

/-! ### Forms and operators -/

theorem evaluateLast_safe (wf : session.WellFormed) {result : Handle} {exprs : List Handle}
    (held : session.store.Holds result) (all_held : ∀ expr ∈ exprs, session.store.Holds expr) :
    Safe session ((stack.callsWithin room).evaluateLast result exprs) Yields := by
  induction exprs generalizing session result with
  | nil => exact .pure wf held
  | cons expr rest ih =>
    obtain ⟨first, others⟩ := List.forall_mem_cons.mp all_held
    apply Safe.bind (inner wf first)
    intro value mid wf grown value_held
    exact ih wf value_held fun other member => grown.holds (others other member)

/-- The part of a conditional that is chosen yields the value. -/
theorem branch_safe (wf : session.WellFormed) {test consequent : Handle}
    {alternative : Option Handle} (test_held : session.store.Holds test)
    (consequent_held : session.store.Holds consequent)
    (alternative_held : ∀ expr, alternative = some expr → session.store.Holds expr) :
    Safe session (SpecialForm.branch (stack.callsWithin room) test consequent alternative)
      Yields := by
  apply Safe.bind (inner wf test_held)
  intro value mid wf grown value_held
  refine Safe.reach_bind wf (Safe.fetch_bind wf value_held fun verdict _ => ?_)
  split
  · exact inner wf (grown.holds consequent_held)
  · cases alternative with
    | some expr => exact inner wf (grown.holds (alternative_held expr rfl))
    | none => exact .nil wf

theorem runConditional_safe (wf : session.WellFormed) {rest : Handle}
    (held : session.store.Holds rest) :
    Safe session (SpecialForm.runConditional (stack.callsWithin room) rest) Yields := by
  apply Safe.elements_bind wf held
  intro operands _ all_held
  match operands with
  | [test, consequent] =>
    apply branch_safe inner wf (all_held _ (by simp)) (all_held _ (by simp))
    exact nofun
  | [test, consequent, alternative] =>
    apply branch_safe inner wf (all_held _ (by simp)) (all_held _ (by simp))
    rintro expr ⟨⟩
    exact all_held _ (by simp)
  | [] | [_] | _ :: _ :: _ :: _ :: _ => exact .fail wf rfl

theorem runAssignment_safe (wf : session.WellFormed) {rest : Handle}
    (held : session.store.Holds rest) :
    Safe session (SpecialForm.runAssignment (stack.callsWithin room) rest) Yields := by
  apply Safe.elements_bind wf held
  intro operands _ all_held
  match operands with
  | [target, expr] =>
    have target_held := all_held target (by simp)
    apply Safe.fetch_bind wf target_held
    intro record stored
    cases record with
    | symbol symbol =>
      have issued := wf.store.symbol_issued stored
      apply Safe.bind (inner wf (all_held expr (by simp)))
      intro value mid wf grown value_held
      apply (assignSymbol_safe (grown.store.symbol_issued issued) wf value_held).bind
      intro _ left wf later _
      exact .pure wf (later.holds value_held)
    | _ => exact refuse_safe wf target_held fun _ => rfl
  | [] | [_] | _ :: _ :: _ :: _ => exact .fail wf rfl

theorem runDefinition_safe (wf : session.WellFormed) {rest : Handle}
    (held : session.store.Holds rest) :
    Safe session (SpecialForm.runDefinition (stack.callsWithin room) rest) Yields := by
  apply Safe.elements_bind wf held
  intro operands listed all_held
  match operands with
  | [] => exact .fail wf rfl
  | target :: others =>
    obtain ⟨target_held, others_held⟩ := List.forall_mem_cons.mp all_held
    apply Safe.fetch_bind wf target_held
    intro record stored
    cases record with
    | pair name params =>
      obtain ⟨⟨last, chain⟩, _⟩ := wf.store.chain_of_elements held listed
      obtain ⟨name_held, params_held⟩ := wf.store.pair_holds stored
      cases chain with
      | link link _ => exact defineProcedure_safe wf link name_held params_held held
    | symbol symbol =>
      match others with
      | [expr] =>
        have issued := wf.store.symbol_issued stored
        apply Safe.bind (inner wf (others_held expr (by simp)))
        intro value mid wf grown value_held
        apply (bindSymbol_safe (grown.store.symbol_issued issued) wf value_held).bind
        intro _ left wf later _
        exact .pure wf (later.holds (grown.holds target_held))
      | [] | _ :: _ :: _ => exact .fail wf rfl
    | _ => exact refuse_safe wf target_held fun _ => rfl

/-- Each special form is safe if evaluation one call deeper is. -/
theorem runForm_safe (wf : session.WellFormed) (form : SpecialForm) {rest : Handle}
    (held : session.store.Holds rest) :
    Safe session (form.run (stack.callsWithin room) rest) Yields := by
  apply Safe.reach_bind wf
  cases form with
  | quotation =>
    apply Safe.elements_bind wf held
    intro operands _ all_held
    match operands with
    | [datum] => exact .pure wf (all_held datum (by simp))
    | [] | _ :: _ :: _ => exact .fail wf rfl
  | conditional => exact runConditional_safe inner wf held
  | assignment => exact runAssignment_safe inner wf held
  | definition => exact runDefinition_safe inner wf held
  | abstraction =>
    apply Safe.fetch_bind wf held
    intro record stored
    cases record with
    | pair params body =>
      obtain ⟨params_held, body_held⟩ := wf.store.pair_holds stored
      exact makeProcedure_safe wf _ params_held body_held
    | _ => exact .fail wf rfl
  | sequence =>
    apply Safe.elements_bind wf held
    intro operands _ all_held
    apply (Safe.nil wf).bind
    intro empty mid wf grown empty_held
    exact evaluateLast_safe inner wf empty_held fun expr member =>
      grown.holds (all_held expr member)

end Forms

theorem expectInteger_safe (wf : session.WellFormed) {h : Handle} (held : session.store.Holds h) :
    Safe session (expectInteger h) fun _ _ => True := by
  apply Safe.fetch_bind wf held
  intro record _
  cases record with
  | integer value => exact .pure wf trivial
  | _ => exact Safe.inspect_bind wf (wf.store.describe_failsSafely held) fun _ _ => .fail wf rfl

theorem expectIntegers_safe (wf : session.WellFormed) {items : List Handle}
    (all_held : ∀ item ∈ items, session.store.Holds item) :
    Safe session (items.mapM expectInteger) fun _ _ => True := by
  induction items generalizing session with
  | nil => exact .pure wf trivial
  | cons item rest ih =>
    obtain ⟨first, others⟩ := List.forall_mem_cons.mp all_held
    rw [List.mapM_cons]
    apply (expectInteger_safe wf first).bind
    intro value mid wf grown _
    apply (ih wf fun other member => grown.holds (others other member)).bind
    intro values left wf _ _
    exact .pure wf trivial

/-- Each operator is safe if evaluation one call deeper is. -/
theorem runOperator_safe (wf : session.WellFormed) (operator : Operator) {args : Handle}
    (held : session.store.Holds args) :
    Safe session (operator.run (stack.callsWithin room) args) Yields := by
  have counting : Safe session (expectCount operator.word 2 args) fun items left =>
      ∀ item ∈ items, left.store.Holds item := by
    apply Safe.elements_bind wf held
    intro items _ all_held
    split
    · exact .fail wf rfl
    · exact .pure wf all_held
  refine Safe.reach_bind wf (counting.bind fun items mid wf _ all_held => ?_)
  apply (expectIntegers_safe wf all_held).bind
  intro values left wf _ _
  exact allocateData_safe wf trivial rfl

/-- A combination is safe, whatever stands in front of it. -/
theorem combination_safe (inner : SafeWithin stack room) (wf : session.WellFormed)
    {head rest : Handle} (head_held : session.store.Holds head)
    (rest_held : session.store.Holds rest) :
    Safe session ((stack.callsWithin room).combination head rest) Yields := by
  apply Safe.fetch_bind wf head_held
  intro record stored
  cases record with
  | keyword name =>
    apply Safe.inspect_bind wf (Vocabulary.form_failsWithin _ fun _ => rfl)
    intro form _
    exact runForm_safe inner wf form rest_held
  | operator name =>
    apply Safe.inspect_bind wf (Vocabulary.operator_failsWithin _ fun _ => rfl)
    intro operator _
    apply (evaluateArguments_safe inner wf rest_held).bind
    intro args mid wf _ args_held
    exact runOperator_safe wf operator args_held
  | symbol symbol =>
    have issued := wf.store.symbol_issued stored
    apply (Safe.lookupSymbol issued wf).bind
    intro target mid wf grown target_held
    apply Safe.fetch_bind wf target_held
    intro callee found
    cases callee with
    | procedure params body scope =>
      obtain ⟨i, below, _, params_issued, body_issued, _⟩ := wf.store.refers_of_get found
      have scope_held := wf.captured found
      apply (evaluateArguments_safe inner wf (grown.holds rest_held)).bind
      intro args left wf later args_held
      exact applyProcedure_safe inner wf (later.holds (params_issued.mono (Nat.le_of_lt below)))
        (later.holds (body_issued.mono (Nat.le_of_lt below))) (later.scope_holds scope_held)
        args_held
    | _ =>
      obtain ⟨name, named⟩ := Store.name_eq mid.store (grown.store.symbol_issued issued)
      apply Safe.inspect_bind wf (by rw [named]; exact .ok _)
      intro _ _
      exact refuse_safe wf target_held fun _ => rfl
  | _ => exact refuse_safe wf head_held fun _ => rfl

end Calls

/-- Evaluation of an issued object is safe, by induction on the room of the host's stack. -/
theorem evaluate_safe (stack : EvalStack) (room : Nat) : SafeWithin stack room := by
  induction room with
  | zero => exact fun wf _ => .fail wf rfl
  | succ room ih =>
    intro session expr wf held
    apply (Safe.reach wf stack room .evaluating).bind
    rintro _ session wf _ rfl
    apply (tick_safe wf).bind
    intro _ mid wf grown _
    have held := grown.holds held
    apply Safe.fetch_bind wf held
    intro record stored
    cases record with
    | symbol symbol => exact .lookupSymbol (wf.store.symbol_issued stored) wf
    | pair head rest =>
      obtain ⟨head_held, rest_held⟩ := wf.store.pair_holds stored
      exact combination_safe ih wf head_held rest_held
    | _ => exact .pure wf held

end ScopedLisp
