import ScopedLisp.Proofs.Ending
import ScopedLisp.Proofs.Eval.Simulation
import ScopedLisp.Proofs.Scopes.Search

/-!
# Evaluation in a larger session

A session may stand in another one, whose tables and frames hold more. A renaming tells where its
entries stand there. Evaluation of an expression in the session and of the renamed expression in
the larger one take the same course: they count the same steps, and one leaves what stands in what
the other one leaves.
-/

namespace ScopedLisp

open Routine

/-! ### Bindings -/

/-- The frame with its handles renamed. -/
def Frame.rename (φ : Handle → Handle) (frame : Frame) : Frame :=
  ⟨frame.parent.map φ, frame.bindings.map fun (symbol, value) => (φ symbol, φ value)⟩

namespace Assoc

variable {φ : Handle → Handle} (injective : Function.Injective φ) (bindings : Assoc Handle Handle)
include injective

/-- Looking up a renamed key gives the renamed value. -/
theorem get?_renamed (symbol : Handle) :
    get? (bindings.map fun (symbol, value) => (φ symbol, φ value)) (φ symbol) =
      (bindings.get? symbol).map φ := by
  induction bindings with
  | nil => rfl
  | cons binding rest ih =>
    obtain ⟨key, value⟩ := binding
    simp only [List.map_cons, get?, injective.eq_iff, ih]
    split <;> rfl

/-- Writing a renamed binding is renaming after the write. The renaming must not merge keys. -/
theorem put_renamed (symbol value : Handle) :
    put (bindings.map fun (symbol, value) => (φ symbol, φ value)) (φ symbol) (φ value) =
      (bindings.put symbol value).map fun (symbol, value) => (φ symbol, φ value) := by
  induction bindings with
  | nil => rfl
  | cons binding rest ih =>
    obtain ⟨key, other⟩ := binding
    simp only [List.map_cons, put, injective.eq_iff, ih]
    split <;> rfl

end Assoc

namespace Renaming

variable {ρ : Renaming}

/-! ### Scopes -/

/-- The frames of the one session stand in the other one, and the same ones are active. -/
structure ScopesCarried (ρ : Renaming) (scopes scopes' : Scopes) : Prop where
  owner : scopes'.owner = scopes.owner
  frames : Carries (ρ.place .scopes) (fun frame frame' => frame' = frame.rename ρ.handle)
    scopes.frames.toList scopes'.frames.toList
  active : scopes'.active = scopes.active.map ρ.handle

namespace ScopesCarried

variable {scopes scopes' : Scopes}

/-- There is a frame on the right for each frame on the left. -/
theorem size_le (carried : ρ.ScopesCarried scopes scopes') :
    scopes.frames.size ≤ scopes'.frames.size :=
  carried.frames.length_le (ρ.injective .scopes)

theorem depth (carried : ρ.ScopesCarried scopes scopes') : scopes'.depth = scopes.depth := by
  simp only [Scopes.depth, carried.active, List.length_map]

/-- A scope that has a place has the corresponding one on the other side. -/
theorem position (carried : ρ.ScopesCarried scopes scopes') (h : Handle) :
    ρ.AgreesUpTo (fun place place' => place'.val = ρ.place .scopes place.val) (scopes.position h)
      (scopes'.position (ρ.handle h)) := by
  unfold Scopes.position
  rw [carried.owner]
  cases found : h.position? .scopes scopes.owner scopes.frames.size with
  | none => exact .excused rfl _
  | some place =>
    have recognised : (ρ.handle h).position? .scopes scopes.owner scopes'.frames.size =
        some ⟨ρ.place .scopes place, carried.frames.place_lt place.isLt⟩ :=
      position?_handle carried.frames found
    rw [recognised]
    exact .ok rfl

/-- Frames that correspond bind corresponding symbols to corresponding objects. -/
theorem frame (carried : ρ.ScopesCarried scopes scopes') (h : Handle) :
    ρ.AgreesUpTo (fun frame frame' => frame' = frame.rename ρ.handle) (scopes.frame h)
      (scopes'.frame (ρ.handle h)) := by
  apply (carried.position h).map
  intro place place' same
  have framed := carried.frames.get place.isLt
  simp only [← same] at framed
  exact framed

theorem current (carried : ρ.ScopesCarried scopes scopes') :
    ρ.AgreesUpTo (HandleRenamed ρ.handle) scopes.current scopes'.current := by
  unfold Scopes.current
  rw [carried.active]
  cases scopes.active with
  | nil => exact .error (.same _)
  | cons scope outer => exact .ok rfl

theorem bindingOf (symbol scope : Handle) (frame : Frame) :
    Scopes.bindingOf (ρ.handle symbol) (ρ.handle scope, frame.rename ρ.handle) =
      (Scopes.bindingOf symbol (scope, frame)).map (Prod.map ρ.handle ρ.handle) := by
  simp only [Scopes.bindingOf, Frame.rename, Assoc.get?_renamed ρ.handle_injective,
    Option.map_map]
  rfl

/-- Searches from corresponding scopes find corresponding bindings. The right-hand side may have
more frames, so it gets at least as many steps. -/
theorem searchWithin (carried : ρ.ScopesCarried scopes scopes') {n n' : Nat} (steps : n ≤ n')
    (symbol scope : Handle) :
    ρ.AgreesUpTo (fun found found' => found' = found.map (Prod.map ρ.handle ρ.handle))
      ((scopes.chainWithin n scope).firstHit (Scopes.bindingOf symbol))
      ((scopes'.chainWithin n' (ρ.handle scope)).firstHit
        (Scopes.bindingOf (ρ.handle symbol))) := by
  induction n generalizing n' scope with
  | zero => exact .excused rfl _
  | succ n ih =>
    obtain ⟨n', rfl⟩ := Nat.exists_eq_add_of_le' (Nat.one_le_of_lt steps)
    have framed := carried.frame scope
    unfold Scopes.chainWithin
    generalize scopes.frame scope = result, scopes'.frame (ρ.handle scope) = result' at framed
    cases framed with
    | excused fault result => exact .excused fault _
    | error related => exact .error related
    | @ok frame _ related =>
      subst related
      simp only [Listing.firstHit_cons, bindingOf]
      cases Scopes.bindingOf symbol (scope, frame) with
      | some found => exact .ok rfl
      | none =>
        obtain ⟨parent, bindings⟩ := frame
        cases parent with
        | none => exact .ok rfl
        | some parent => exact ih (Nat.le_of_succ_le_succ steps) parent

theorem find? (carried : ρ.ScopesCarried scopes scopes') (symbol : Handle) :
    ρ.AgreesUpTo (fun found found' => found' = found.map (Prod.map ρ.handle ρ.handle))
      (scopes.find? symbol) (scopes'.find? (ρ.handle symbol)) := by
  have current := carried.current
  rw [Scopes.find?, Scopes.find?, Scopes.chain, Scopes.chain]
  generalize scopes.current = result, scopes'.current = result' at current
  cases current with
  | excused fault result => exact .excused fault _
  | error related => exact .error related
  | @ok scope _ related =>
    subst related
    exact carried.searchWithin (Nat.succ_le_succ carried.size_le) symbol scope

section Named

variable {naming naming' : Scopes.Naming}
  (named : ∀ h, ρ.AgreesUpTo Eq (naming h) (naming' (ρ.handle h)))
include named

theorem unbound {α β : Type} {rel : α → β → Prop} (symbol : Handle) :
    ρ.AgreesUpTo rel (Scopes.unbound naming symbol) (Scopes.unbound naming' (ρ.handle symbol)) :=
  (named symbol).throw fun _ _ same => .unboundVariable same

/-- Lookups of corresponding symbols give corresponding objects. -/
theorem lookup (carried : ρ.ScopesCarried scopes scopes') (symbol : Handle) :
    ρ.AgreesUpTo (HandleRenamed ρ.handle) (scopes.lookup naming symbol)
      (scopes'.lookup naming' (ρ.handle symbol)) := by
  rw [Scopes.lookup_eq, Scopes.lookup_eq]
  apply (carried.find? symbol).bind
  rintro found _ rfl
  cases found with
  | some hit => exact .ok rfl
  | none => exact unbound named symbol

/-- Corresponding symbols are bound nearest at corresponding places. -/
theorem bindingPlace (carried : ρ.ScopesCarried scopes scopes') (symbol : Handle) :
    ρ.AgreesUpTo (fun place place' => place'.val = ρ.place .scopes place.val)
      (scopes.bindingPlace naming symbol) (scopes'.bindingPlace naming' (ρ.handle symbol)) := by
  rw [Scopes.bindingPlace_eq, Scopes.bindingPlace_eq]
  apply (carried.find? symbol).bind
  rintro found _ rfl
  cases found with
  | some hit => exact carried.position hit.1
  | none => exact unbound named symbol

end Named

theorem currentPlace (carried : ρ.ScopesCarried scopes scopes') :
    ρ.AgreesUpTo (fun place place' => place'.val = ρ.place .scopes place.val) scopes.currentPlace
      scopes'.currentPlace := by
  apply carried.current.bind
  rintro scope _ rfl
  exact carried.position scope

/-- Corresponding writes at corresponding places keep the correspondence. -/
theorem write (carried : ρ.ScopesCarried scopes scopes') {place : Fin scopes.frames.size}
    {place' : Fin scopes'.frames.size} (same : place'.val = ρ.place .scopes place.val)
    (symbol value : Handle) :
    ρ.ScopesCarried (scopes.write place symbol value)
      (scopes'.write place' (ρ.handle symbol) (ρ.handle value)) := by
  refine ⟨carried.owner, ⟨fun {i frame} stored => ?_, fun i => ?_⟩, carried.active⟩
  · simp only [Scopes.write, Array.getElem?_toList, Array.getElem?_modify] at stored ⊢
    simp only [same, (ρ.injective .scopes).eq_iff]
    by_cases here : place.val = i
    · rw [if_pos here] at stored ⊢
      obtain ⟨before, inside, rfl⟩ := Option.map_eq_some_iff.mp stored
      rw [← Array.getElem?_toList] at inside ⊢
      obtain ⟨_, inside', rfl⟩ := carried.frames.entry inside
      refine ⟨_, by rw [inside', Option.map_some], ?_⟩
      simp only [Frame.rename, Assoc.put_renamed ρ.handle_injective]
    · rw [if_neg here] at stored ⊢
      rw [← Array.getElem?_toList] at stored ⊢
      exact carried.frames.entry stored
  · have next := carried.frames.next i
    simpa only [Scopes.write, Array.length_toList, Array.size_modify] using next

theorem parentFor (carried : ρ.ScopesCarried scopes scopes') (parent : Handle) :
    ρ.AgreesUpTo (fun link link' => link' = link.map ρ.handle) (scopes.parentFor (some parent))
      (scopes'.parentFor (some (ρ.handle parent))) :=
  (carried.position parent).map fun _ _ _ => rfl

/-- New frames under corresponding parents correspond. -/
theorem addFrame (carried : ρ.ScopesCarried scopes scopes') (parent : Option Handle) :
    ρ.ScopesCarried (scopes.addFrame parent).1 (scopes'.addFrame (parent.map ρ.handle)).1 ∧
      (scopes'.addFrame (parent.map ρ.handle)).2 = ρ.handle (scopes.addFrame parent).2 := by
  refine ⟨⟨carried.owner, ?_, carried.active⟩, ?_⟩
  · simp only [Scopes.addFrame, Array.toList_push]
    exact carried.frames.concat rfl
  · have placed := carried.frames.place_length
    simp only [Array.length_toList] at placed
    simp only [Scopes.addFrame, Scopes.handleAt, handle_natIndex, carried.owner, placed]

theorem withActive (carried : ρ.ScopesCarried scopes scopes') (active : List Handle) :
    ρ.ScopesCarried { scopes with active } { scopes' with active := active.map ρ.handle } :=
  ⟨carried.owner, carried.frames, rfl⟩

theorem activate (carried : ρ.ScopesCarried scopes scopes') (scope : Handle) :
    ρ.ScopesCarried (scopes.activate scope) (scopes'.activate (ρ.handle scope)) := by
  unfold Scopes.activate
  rw [carried.active]
  exact carried.withActive (scope :: scopes.active)

end ScopesCarried

/-! ### Sessions -/

/-- What the one session holds stands in the other one. Both have the same reserved words, count of
steps and limit. -/
structure SessionCarried (ρ : Renaming) (session session' : Session) : Prop where
  store : ρ.StoreCarried session.store session'.store
  scopes : ρ.ScopesCarried session.scopes session'.scopes
  vocabulary : session'.vocabulary = session.vocabulary
  stepLimit : session'.stepLimit = session.stepLimit
  steps : session'.steps = session.steps

/-- Run in a session that stands in another one, the first routine ends as the second one does
there. -/
abbrev Follows (ρ : Renaming) {α β : Type} (rel : α → β → Prop) (routine : Routine α)
    (routine' : Routine β) : Prop :=
  Tracks ρ.SessionCarried (Failure.Renamed ρ.handle Eq) rel routine routine'

namespace SessionCarried

variable {session session' : Session}

theorem withStore (carried : ρ.SessionCarried session session') {store store' : Store}
    (stored : ρ.StoreCarried store store') :
    ρ.SessionCarried { session with store } { session' with store := store' } :=
  ⟨stored, carried.scopes, carried.vocabulary, carried.stepLimit, carried.steps⟩

theorem withScopes (carried : ρ.SessionCarried session session') {scopes scopes' : Scopes}
    (framed : ρ.ScopesCarried scopes scopes') :
    ρ.SessionCarried { session with scopes } { session' with scopes := scopes' } :=
  ⟨carried.store, framed, carried.vocabulary, carried.stepLimit, carried.steps⟩

theorem withJournal (carried : ρ.SessionCarried session session') (journal journal' : Array Event) :
    ρ.SessionCarried { session with journal } { session' with journal := journal' } :=
  ⟨carried.store, carried.scopes, carried.vocabulary, carried.stepLimit, carried.steps⟩

end SessionCarried

namespace Follows

variable {α β : Type} {rel : α → β → Prop}

/-- Readings that agree on corresponding stores agree on corresponding sessions. -/
theorem inspect {read : Store → Vocabulary → Except Failure α}
    {read' : Store → Vocabulary → Except Failure β}
    (agrees : ∀ store store' words, ρ.StoreCarried store store' →
      ρ.AgreesUpTo rel (read store words) (read' store' words)) :
    ρ.Follows rel (inspect read) (Routine.inspect read') := by
  refine Tracks.reading (fun session session' carried => ?_) (fun _ => rfl) fun _ => rfl
  rw [carried.vocabulary]
  exact agrees _ _ _ carried.store

/-- The vocabulary is the same on both sides. -/
theorem words (read : Vocabulary → Except Failure α) :
    ρ.Follows (fun value value' => value = value' ∧ ∃ words, read words = .ok value)
      (Routine.inspect fun _ words => read words) (Routine.inspect fun _ words => read words) := by
  apply inspect
  intro _ _ words _
  cases found : read words with
  | ok value => exact .ok ⟨rfl, words, found⟩
  | error failure => exact .error (.same failure)

/-- Records that correspond are given handles that correspond. -/
theorem allocate (record : Record) :
    ρ.Follows (HandleRenamed ρ.handle) (allocate record)
      (Routine.allocate (record.rename ρ.handle)) := by
  intro session session' carried
  obtain ⟨stored, placed⟩ := carried.store.heap.insert record
  refine .ok placed (carried.withStore ?_)
  exact ⟨stored, carried.store.symbolsOwner, carried.store.names, carried.store.textsOwner,
    carried.store.contents⟩

theorem currentScope :
    ρ.Follows (HandleRenamed ρ.handle) currentScope Routine.currentScope :=
  Tracks.reading (fun _ _ carried => carried.scopes.current) (fun _ => rfl) fun _ => rfl

theorem lookupSymbol (symbol : Handle) :
    ρ.Follows (HandleRenamed ρ.handle) (lookupSymbol symbol)
      (Routine.lookupSymbol (ρ.handle symbol)) :=
  Tracks.reading (fun _ _ carried => carried.scopes.lookup carried.store.symbolName symbol)
    (fun _ => rfl) fun _ => rfl

/-- A binding is written alike if its place is found alike. -/
theorem writeBinding
    {find find' : (session : Session) → Except Failure (Fin session.scopes.frames.size)}
    (agrees : ∀ session session', ρ.SessionCarried session session' →
      ρ.AgreesUpTo (fun place place' => place'.val = ρ.place .scopes place.val) (find session)
        (find' session'))
    (symbol value : Handle) :
    ρ.Follows Eq (writeBinding find symbol value)
      (Routine.writeBinding find' (ρ.handle symbol) (ρ.handle value)) := by
  intro session session' carried
  have found := agrees session session' carried
  unfold Routine.writeBinding
  generalize find session = result, find' session' = result' at found
  cases found with
  | ok same => exact .ok rfl (carried.withScopes (carried.scopes.write same symbol value))
  | error related => exact .error related carried
  | excused fault result => exact .excused fault session _

/-- Sessions that correspond are kept in correspondence by all that evaluation is made of. -/
theorem simulation (ρ : Renaming) : Simulation ρ.handle Eq ρ.Follows where
  pure := Tracks.pure
  bind := Tracks.bind
  fail := Tracks.fail
  excuse fault := Tracks.excuse fault
  phrase := by
    rintro _ _ _ _ rfl rfl
    rfl
  fetch h := inspect fun _ _ _ stored => stored.heap.get h
  nil := inspect fun _ _ _ stored => .ok stored.heap.nil
  heapSize := inspect fun _ _ _ stored => .ok stored.heap.size_le
  elements h := inspect fun _ _ _ stored => stored.heap.elements h
  parameterShape params := inspect fun _ _ _ stored => stored.heap.parameterShape params
  checkParameters form params := inspect fun _ _ _ stored => stored.checkParameters form params
  symbolName h := inspect fun _ _ _ stored => stored.symbolName h
  describe h := inspect fun _ _ _ stored => stored.describe .same h
  words := words
  allocate := allocate
  currentScope := currentScope
  lookupSymbol := lookupSymbol
  bindSymbol := writeBinding fun _ _ carried => carried.scopes.currentPlace
  assignSymbol symbol := writeBinding
    (fun _ _ carried => carried.scopes.bindingPlace carried.store.symbolName symbol) symbol

/-! ### Procedure calls -/

/-- Only the journals are changed, which tell of scopes by their index. -/
theorem of_journal {routine routine' : Routine Unit}
    (only : ∀ session : Session, ∃ journal, routine session = .ok () { session with journal })
    (only' : ∀ session : Session, ∃ journal, routine' session = .ok () { session with journal }) :
    ρ.Follows Eq routine routine' := by
  intro session session' carried
  obtain ⟨journal, result⟩ := only session
  obtain ⟨journal', result'⟩ := only' session'
  rw [result, result']
  exact .ok rfl (carried.withJournal journal journal')

theorem countStep : ρ.Follows Eq countStep Routine.countStep := by
  intro session session' carried
  refine .ok rfl ⟨carried.store, carried.scopes, carried.vocabulary, carried.stepLimit, ?_⟩
  exact congrArg (· + 1) carried.steps

theorem enforceLimit : ρ.Follows Eq enforceLimit Routine.enforceLimit := by
  intro session session' carried
  have same : Failure.Renamed ρ.handle Eq (.stepLimitExceeded session.stepLimit)
      (.stepLimitExceeded session'.stepLimit) := by
    rw [carried.stepLimit]
    exact .same _
  have alike : (session'.stepLimit ≠ 0 ∧ session'.stepLimit < session'.steps) =
      (session.stepLimit ≠ 0 ∧ session.stepLimit < session.steps) := by
    rw [carried.stepLimit, carried.steps]
  rw [enforceLimit_eq, enforceLimit_eq]
  by_cases exceeded : session.stepLimit ≠ 0 ∧ session.stepLimit < session.steps
  · rw [if_pos exceeded, if_pos (alike ▸ exceeded)]
    exact .error same (carried.withJournal _ _)
  · rw [if_neg exceeded, if_neg (alike ▸ exceeded)]
    exact .ok rfl carried

theorem makeFrame_eq (parent : Option Handle) (session : Session) :
    Routine.makeFrame parent session =
      match session.scopes.parentFor parent with
      | .ok link => .ok ((session.scopes.addFrame link).2, link)
          { session with scopes := (session.scopes.addFrame link).1 }
      | .error failure => .error failure session := by
  cases found : session.scopes.parentFor parent with
  | ok link => exact makeFrame_ok found
  | error failure => exact makeFrame_error found

/-- Frames made under corresponding scopes correspond, and so do their handles. -/
theorem makeFrame (parent : Handle) :
    ρ.Follows (fun (scope, link) made => made = (ρ.handle scope, link.map ρ.handle))
      (makeFrame (some parent)) (Routine.makeFrame (some (ρ.handle parent))) := by
  intro session session' carried
  have linked := carried.scopes.parentFor parent
  rw [makeFrame_eq, makeFrame_eq]
  generalize session.scopes.parentFor (some parent) = result,
    session'.scopes.parentFor (some (ρ.handle parent)) = result' at linked
  cases linked with
  | error related => exact .error related carried
  | excused fault result => exact .excused fault session _
  | @ok link _ related =>
    subst related
    obtain ⟨framed, placed⟩ := carried.scopes.addFrame link
    refine .ok ?_ (carried.withScopes framed)
    rw [placed]

theorem activate (scope : Handle) :
    ρ.Follows Eq (activate scope) (Routine.activate (ρ.handle scope)) :=
  fun _ _ carried => .ok rfl (carried.withScopes (carried.scopes.activate scope))

/-- The scopes that are left on both sides correspond. -/
theorem leave : ρ.Follows (HandleRenamed ρ.handle) leave Routine.leave := by
  intro session session' carried
  have active := carried.scopes.active
  rcases shape : session.scopes.active with _ | ⟨scope, _ | ⟨next, outer⟩⟩
  · rw [leave_of_few (by rw [shape]; exact Nat.zero_le 1)]
    exact .excused rfl session _
  · rw [leave_of_few (by rw [shape]; exact Nat.le_refl 1)]
    exact .excused rfl session _
  · rw [shape] at active
    rw [leave_eq shape, leave_eq active]
    exact .ok rfl (carried.withScopes (carried.scopes.withActive (next :: outer)))

section Calls

variable {total room : Nat} {calls calls' : Calls}

theorem reach (moment : Moment) :
    ρ.Follows Eq ((CallStack.withRoom total : EvalStack).reach room moment)
      ((CallStack.withRoom total : EvalStack).reach room moment) :=
  fun _ _ carried => .ok rfl carried

theorem enterScope (parent : Handle) :
    ρ.Follows Eq (((CallStack.withRoom total).callsWithin room).enterScope parent)
      (((CallStack.withRoom total).callsWithin room).enterScope (ρ.handle parent)) := by
  apply (reach .entering).bind
  intro _ _ _
  apply (makeFrame parent).bind
  rintro ⟨scope, link⟩ _ rfl
  refine (reach .entering).bind fun _ _ _ => (activate scope).bind fun _ _ _ => ?_
  exact (reach .entered).bind fun _ _ _ => of_journal (fun _ => ⟨_, rfl⟩) fun _ => ⟨_, rfl⟩

theorem exitScope :
    ρ.Follows Eq ((CallStack.withRoom total).callsWithin room).exitScope
      ((CallStack.withRoom total).callsWithin room).exitScope := by
  refine (reach .leaving).bind fun _ _ _ => leave.bind fun _ _ _ => ?_
  exact (reach .left).bind fun _ _ _ => of_journal (fun _ => ⟨_, rfl⟩) fun _ => ⟨_, rfl⟩

/-- Leaving a scope fails only if it is the outermost one. -/
theorem exitScope_fault {session left : Session} {failure : Failure}
    (failed : ((CallStack.withRoom total).callsWithin room).exitScope session =
      .error failure left) : failure.isSafe = false := by
  change (Routine.leave >>= fun scope => do
    (CallStack.withRoom total : EvalStack).reach room .left
    Routine.reportLeft scope) session = _ at failed
  rcases shape : session.scopes.active with _ | ⟨scope, _ | ⟨next, outer⟩⟩
  · rw [bind_error (leave_of_few (by rw [shape]; exact Nat.zero_le 1))] at failed
    cases failed
    rfl
  · rw [bind_error (leave_of_few (by rw [shape]; exact Nat.le_refl 1))] at failed
    cases failed
    rfl
  · rw [bind_ok (leave_eq shape)] at failed
    cases failed

/-- Bodies that correspond may be run within corresponding scopes. -/
theorem within (parent : Handle) {body : Routine α} {body' : Routine β}
    (inner : ρ.Follows rel body body') :
    ρ.Follows rel (((CallStack.withRoom total).callsWithin room).within parent body)
      (((CallStack.withRoom total).callsWithin room).within (ρ.handle parent) body') := by
  apply (enterScope parent).bind
  intro _ _ _
  have applied : ρ.Follows Eq
      (do report (.procedureApplied (← get).scopes.depth))
      (do report (.procedureApplied (← get).scopes.depth)) :=
    of_journal (fun _ => ⟨_, rfl⟩) fun _ => ⟨_, rfl⟩
  exact applied.bind fun _ _ _ => inner.ensuring exitScope exitScope_fault

/-- Evaluation of an expression is followed by evaluation of the renamed one. -/
theorem evaluate (total room : Nat) (expr : Handle) :
    ρ.Follows (HandleRenamed ρ.handle) (evaluate (.withRoom total) room expr)
      (ScopedLisp.evaluate (.withRoom total) room (ρ.handle expr)) := by
  refine (simulation ρ).evaluate (fun room evaluates => ?_) room expr
  refine ⟨evaluates, reach, ?_, within⟩
  exact countStep.bind fun _ _ _ => (reach .counted).bind fun _ _ _ => enforceLimit

end Calls

end Follows

end Renaming

end ScopedLisp
