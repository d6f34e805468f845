import ScopedLisp.Proofs.Eval.Regime
import ScopedLisp.Proofs.Eval.ScopeStack
import ScopedLisp.Proofs.Program.Immutability

/-!
# Definitions are confined

A definition binds its name in the current frame and a call binds its parameters in the frame that
it makes. So an evaluation adds no symbol to any frame that was there before but the current one,
and a call adds none to any, whatever the outcome. What such a frame binds a symbol to can change,
but only by an assignment: as long as no word for assignments can be met, those frames stay as they
are.
-/

namespace ScopedLisp

open Routine

/-- The later frame has the same parent and binds the same symbols, though perhaps to other
objects. -/
structure Frame.BindsAlike (frame later : Frame) : Prop where
  parent : later.parent = frame.parent
  bound : later.bindings.keys = frame.bindings.keys

/-- The frames of the chosen scopes stand in their places in the later scopes, changed in no other
way than `same` allows. -/
structure Scopes.KeepsFrames (same : Frame → Frame → Prop) (chosen : Handle → Prop)
    (scopes later : Scopes) : Prop where
  owner : later.owner = scopes.owner
  frames : ∀ {i : Nat} {frame : Frame}, scopes.frames[i]? = some frame →
    chosen (scopes.handleAt i) → ∃ frame', later.frames[i]? = some frame' ∧ same frame frame'

/-- No word for assignments is to be met: neither in the heap, nor as the word for a sequence, which
an evaluation may add to the heap. -/
def Session.LacksAssignment (session : Session) : Prop :=
  ∀ name, (name = SpecialForm.sequence.word ∨ .keyword name ∈ session.store.heap.records) →
    session.vocabulary.form name ≠ .ok .assignment

/-- How a frame may change under the current one: in no way at all, in several such ways after one
another, and if assignments are offered, by one of them. -/
structure FrameChange (offers : SpecialForm → Prop) (same : Frame → Frame → Prop) : Prop where
  refl : ∀ frame, same frame frame
  trans : ∀ {frame mid later}, same frame mid → same mid later → same frame later
  assigns : offers .assignment → ∀ {frame : Frame} {symbol value},
    frame.bindings.has symbol = true →
      same frame { frame with bindings := frame.bindings.put symbol value }

/-- Binding the same symbols is respected by every form there is. -/
theorem FrameChange.bindsAlike (offers : SpecialForm → Prop) :
    FrameChange offers Frame.BindsAlike where
  refl _ := ⟨rfl, rfl⟩
  trans first second :=
    ⟨second.parent.trans first.parent, second.bound.trans first.bound⟩
  assigns _ {frame symbol value} bound := by
    refine ⟨rfl, ?_⟩
    rw [Assoc.keys_put, if_pos bound]

/-- Equality of frames is respected where nothing is assigned. -/
theorem FrameChange.eq : FrameChange (· ≠ .assignment) Eq where
  refl _ := rfl
  trans := Eq.trans
  assigns offered := absurd rfl offered

/-! ### Elementary changes of the scopes -/

namespace Scopes.KeepsFrames

variable {offers : SpecialForm → Prop} {same : Frame → Frame → Prop} {chosen : Handle → Prop}
  {scopes mid later : Scopes}

/-- Frames that are kept twice are kept. -/
theorem trans (law : FrameChange offers same) (first : scopes.KeepsFrames same chosen mid)
    (second : mid.KeepsFrames same chosen later) : scopes.KeepsFrames same chosen later := by
  refine ⟨second.owner.trans first.owner, fun {i frame} inside picked => ?_⟩
  obtain ⟨frame', inside', kept⟩ := first.frames inside picked
  have picked' : chosen (mid.handleAt i) := by
    rw [handleAt, first.owner]
    exact picked
  obtain ⟨frame'', inside'', kept'⟩ := second.frames inside' picked'
  exact ⟨frame'', inside'', law.trans kept kept'⟩

/-- Other scopes may be active, and there may be further frames. -/
theorem of_prefix (law : FrameChange offers same) (owner : later.owner = scopes.owner)
    (frames : ∀ {i : Nat} {frame : Frame}, scopes.frames[i]? = some frame →
      later.frames[i]? = some frame) : scopes.KeepsFrames same chosen later :=
  ⟨owner, fun inside _ => ⟨_, frames inside, law.refl _⟩⟩

theorem of_eq (law : FrameChange offers same) (owner : later.owner = scopes.owner)
    (frames : later.frames = scopes.frames) : scopes.KeepsFrames same chosen later :=
  of_prefix law owner fun inside => frames ▸ inside

theorem refl (law : FrameChange offers same) (scopes : Scopes) :
    scopes.KeepsFrames same chosen scopes := of_eq law rfl rfl

/-- Entering a new scope keeps the frames there are. -/
theorem push (law : FrameChange offers same) (scopes : Scopes) (parent : Option Handle) :
    scopes.KeepsFrames same chosen (scopes.push parent).1 := by
  refine of_prefix law rfl fun {i frame} inside => ?_
  obtain ⟨below, stored⟩ := Array.getElem?_eq_some_iff.mp inside
  change (scopes.frames.push ⟨parent, []⟩)[i]? = some frame
  rw [Array.getElem?_push_lt below, stored]

/-- A binding may be written into a frame that is not chosen, or where the change is allowed. -/
theorem write (law : FrameChange offers same) (place : Fin scopes.frames.size)
    (symbol value : Handle)
    (allowed : chosen (scopes.handleAt place) → ∀ {frame : Frame},
      scopes.frames[place.val]? = some frame →
        same frame { frame with bindings := frame.bindings.put symbol value }) :
    scopes.KeepsFrames same chosen (scopes.write place symbol value) := by
  refine ⟨rfl, fun {i frame} inside picked => ?_⟩
  simp only [Scopes.write, Array.getElem?_modify, inside]
  by_cases here : place.val = i
  · subst here
    simp only [if_pos, Option.map_some]
    exact ⟨_, rfl, allowed picked inside⟩
  · simp only [if_neg here]
    exact ⟨frame, rfl, law.refl frame⟩

/-- What keeps all frames but the one that was just made keeps all that there were before. -/
theorem of_push (law : FrameChange offers same) {parent : Option Handle}
    (kept : (scopes.push parent).1.KeepsFrames same
      (· ≠ scopes.handleAt scopes.frames.size) later) :
    scopes.KeepsFrames same (fun _ => True) later := by
  have grown : scopes.KeepsFrames same (fun _ => True) (scopes.push parent).1 :=
    push law scopes parent
  refine ⟨kept.owner, fun {i frame} inside _ => ?_⟩
  obtain ⟨frame', inside', changed⟩ := grown.frames inside trivial
  have below := (Array.getElem?_eq_some_iff.mp inside).1
  have older : scopes.handleAt i ≠ scopes.handleAt scopes.frames.size := by
    intro same_handle
    have same_index : (i : Int) = scopes.frames.size := congrArg Handle.index same_handle
    omega
  obtain ⟨frame'', inside'', changed'⟩ := kept.frames inside' older
  exact ⟨frame'', inside'', law.trans changed changed'⟩

end Scopes.KeepsFrames

/-! ### Routines -/

/-- Of an ending: all frames but that of the current scope have been kept, and after a success the
active scopes are what they were. -/
def Confined (same : Frame → Frame → Prop) (scopes : Scopes) (scope : Handle) {α : Type} :
    Ending α → Prop
  | .ok _ left => scopes.KeepsFrames same (· ≠ scope) left.scopes ∧
      left.scopes.active = scopes.active
  | .error _ left => scopes.KeepsFrames same (· ≠ scope) left.scopes

/-- Started under the regime in a session with some current scope, the first routine stays under the
regime and keeps all frames but that of the current scope. -/
def Confines (words : Vocabulary) (holds : Record → Prop) (same : Frame → Frame → Prop) (α : Type)
    (routine other : Routine α) : Prop :=
  Upholds words holds (fun _ _ => True) α routine other ∧
    ∀ session : Session, session.Under words holds → ∀ scope outer,
      session.scopes.active = scope :: outer →
        Confined same session.scopes scope (routine session)

section Calls

variable {stack : EvalStack} {room : Nat} {calls : Calls} {offers : SpecialForm → Prop}
  {same : Frame → Frame → Prop} {chosen : Handle → Prop}

variable (chosen) in
/-- Entering a scope makes a new frame under the parent that is given, or it fails and leaves the
frames that there were. -/
theorem Calls.enterScope_keeps (law : FrameChange offers same)
    (checks : calls.reach = stack.reach room) (parent : Handle) (session : Session) :
    (∃ mid, calls.enterScope parent session = .ok () mid ∧
      mid.scopes = (session.scopes.push (some parent)).1 ∧ mid.store = session.store ∧
        mid.vocabulary = session.vocabulary) ∨
    ∃ failure left, calls.enterScope parent session = .error failure left ∧
      session.scopes.KeepsFrames same chosen left.scopes := by
  unfold Calls.enterScope
  rw [checks, CallStack.reach_bind]
  split
  · exact .inr ⟨_, _, rfl, .refl law _⟩
  · cases found : session.scopes.parentFor (some parent) with
    | error failure => exact .inr ⟨_, _, bind_error (makeFrame_error found), .refl law _⟩
    | ok link =>
      obtain rfl : link = some parent := by
        simp only [Scopes.parentFor, Except.map] at found
        split at found <;> cases found
        rfl
      have pushed : session.scopes.KeepsFrames same chosen
          (session.scopes.addFrame (some parent)).1 :=
        (Scopes.KeepsFrames.push law session.scopes (some parent)).trans law (.of_eq law rfl rfl)
      rw [bind_ok (makeFrame_ok found)]
      dsimp only
      rw [CallStack.reach_bind]
      split
      · exact .inr ⟨_, _, rfl, pushed⟩
      · rw [bind_ok (rfl : activate _ _ = .ok () _), CallStack.reach_bind]
        split
        · exact .inr ⟨_, _, rfl, .push law session.scopes (some parent)⟩
        · exact .inl ⟨_, rfl, rfl, rfl, rfl⟩

/-- Leaving a scope keeps all frames, also if the stack is exhausted at it. -/
theorem Calls.exitScope_keeps (law : FrameChange offers same)
    (checks : calls.reach = stack.reach room) (session : Session) :
    session.scopes.KeepsFrames same chosen (Ending.left (calls.exitScope session)).scopes := by
  unfold Calls.exitScope
  rw [checks, CallStack.reach_bind]
  split
  · exact .refl law _
  · rcases shape : session.scopes.active with _ | ⟨scope, _ | ⟨next, outer⟩⟩
    · rw [bind_error (leave_of_few (by rw [shape]; exact Nat.zero_le 1))]
      exact .refl law _
    · rw [bind_error (leave_of_few (by rw [shape]; exact Nat.le_refl 1))]
      exact .refl law _
    · rw [bind_ok (leave_eq shape), CallStack.reach_bind]
      split <;> exact .of_eq law rfl rfl

/-- Leaving a scope after the body changes no frame. -/
theorem Calls.ensuring_keeps (law : FrameChange offers same)
    (checks : calls.reach = stack.reach room) {α : Type} (body : Routine α) (session : Session) :
    (Ending.left (body session)).scopes.KeepsFrames same chosen
      (Ending.left (ensuring body calls.exitScope session)).scopes := by
  rw [left_ensuring]
  exact calls.exitScope_keeps law checks (Ending.left (body session))

end Calls

/-- What is confined to a scope keeps all other frames, however it ends. -/
theorem Confined.left {same : Frame → Frame → Prop} {scopes : Scopes} {scope : Handle} {α : Type}
    {ending : Ending α} (confined : Confined same scopes scope ending) :
    scopes.KeepsFrames same (· ≠ scope) ending.left.scopes := by
  cases ending with
  | ok value left => exact confined.1
  | error failure left => exact confined

namespace Confines

variable {words : Vocabulary} {holds : Record → Prop} {offers : SpecialForm → Prop}
  {same : Frame → Frame → Prop} {α β : Type}

/-- A routine followed by another is confined to the current scope if both are. The first leaves the
current scope as it was, so the scope is the same for both. -/
theorem bind (law : FrameChange offers same) {first first' : Routine α}
    {next next' : α → Routine β} (head : Confines words holds same α first first')
    (tail : ∀ value, Confines words holds same β (next value) (next' value)) :
    Confines words holds same β (first >>= next) (first' >>= next') := by
  refine ⟨head.1.bind fun value => (tail value).1, ?_⟩
  intro session under scope outer current
  have upheld := head.1 session under
  have confined := head.2 session under scope outer current
  cases result : first session with
  | ok value mid =>
    rw [result] at upheld confined
    rw [bind_ok result]
    obtain ⟨kept, active⟩ := confined
    have later := (tail value).2 mid upheld scope outer (active.trans current)
    cases ending : next value mid with
    | ok value left =>
      rw [ending] at later
      exact ⟨kept.trans law later.1, later.2.trans active⟩
    | error failure left =>
      rw [ending] at later
      exact kept.trans law later
  | error failure left =>
    rw [result] at confined
    rw [bind_error result]
    exact confined

/-- A routine that does not touch the scopes. -/
theorem of_scopes_eq (law : FrameChange offers same) {routine : Routine α}
    (upholds : Upholds words holds (fun _ _ => True) α routine routine)
    (unchanged : ∀ session, (Ending.left (routine session)).scopes = session.scopes) :
    Confines words holds same α routine routine := by
  refine ⟨upholds, fun session _ scope _ _ => ?_⟩
  have kept := unchanged session
  cases result : routine session with
  | ok value left =>
    rw [result] at kept
    exact ⟨.of_eq law (congrArg _ kept) (congrArg _ kept), congrArg _ kept⟩
  | error failure left =>
    rw [result] at kept
    exact .of_eq law (congrArg _ kept) (congrArg _ kept)

/-- A routine that only reads the session is confined to any scope. -/
theorem reading (law : FrameChange offers same) {routine : Routine α}
    (read : Session → Except Failure α)
    (reads : ∀ session, routine session = (ofExcept (read session) : Routine α) session) :
    Confines words holds same α routine routine := by
  refine of_scopes_eq law (.reading read reads fun _ _ _ _ => trivial) fun session => ?_
  rw [reads, left_ofExcept]

theorem delivers (law : FrameChange offers same) {routine : Routine α}
    (read : Session → Except Failure α)
    (reads : ∀ session, routine session = (ofExcept (read session) : Routine α) session)
    {goal : α → Prop}
    (finds : ∀ session, session.Under words holds → ∀ value, read session = .ok value →
      goal value) :
    Delivers (Confines words holds same) goal routine routine := by
  intro β next next' tail
  constructor
  · exact Upholds.delivers read reads finds (fun _ _ _ _ => trivial) fun value met =>
      (tail value met).1
  · intro session under scope outer current
    have runs := reads session
    cases found : read session with
    | ok value =>
      rw [found] at runs
      rw [bind_ok runs]
      exact (tail value (finds session under value found)).2 session under scope outer current
    | error failure =>
      rw [found] at runs
      rw [bind_error runs]
      exact .refl law _

section Evaluation

variable (regime : Regime words holds offers fun _ _ => True) (law : FrameChange offers same)
include regime law

/-- A definition changes the current scope only. -/
theorem bindSymbol (symbol value : Handle) :
    Confines words holds same Unit (bindSymbol symbol value) (Routine.bindSymbol symbol value) := by
  refine ⟨(Upholds.governed regime).bindSymbol symbol value, ?_⟩
  intro session _ scope outer current
  cases found : session.scopes.currentPlace with
  | error failure =>
    rw [bindSymbol_error found]
    exact .refl law _
  | ok place =>
    rw [bindSymbol_ok found]
    refine ⟨.write law place symbol value fun other => absurd ?_ other, rfl⟩
    have here := Scopes.currentPlace_eq_ok found
    rw [Scopes.current, current] at here
    exact (Except.ok.inj here).symm

/-- An assignment leaves every scope with the symbols it binds, so it is confined where only these
are compared. -/
theorem assignSymbol (offered : offers .assignment) (symbol value : Handle) :
    Confines words holds same Unit (assignSymbol symbol value)
      (Routine.assignSymbol symbol value) := by
  refine ⟨(Upholds.governed regime).assignSymbol offered symbol value, ?_⟩
  intro session _ scope _ _
  cases found : session.scopes.bindingPlace session.store.symbols.name symbol with
  | error failure =>
    rw [assignSymbol_error found]
    exact .refl law _
  | ok place =>
    rw [assignSymbol_ok found]
    refine ⟨.write law place symbol value fun _ _ inside => ?_, rfl⟩
    exact law.assigns offered (Scopes.has_of_bindingPlace found inside)

/-- The operations that evaluation is made of are confined to the current scope. -/
theorem governed : Governed holds offers (Confines words holds same) where
  plain := regime.plain
  pure value := of_scopes_eq law (.pure value) fun _ => rfl
  bind := bind law
  inspect _ := reading law (fun session => _) fun _ => rfl
  fetch h := delivers law (fun session => session.store.heap.get h) (fun _ => rfl)
    fun _ under _ stored => under.record stored
  sequence := delivers law
    (fun session => .ok (session.vocabulary.classify SpecialForm.sequence.word)) (fun _ => rfl)
    fun session under word found record same => by
      cases found
      rw [under.vocabulary] at same
      exact regime.sequence same
  form {name} held := delivers law (fun session => session.vocabulary.form name) (fun _ => rfl)
    fun _ under _ found => regime.offered held (under.vocabulary ▸ found)
  operator {name} _ := reading law (fun session => session.vocabulary.operator name) fun _ => rfl
  allocate held := of_scopes_eq law (.allocate held) fun _ => rfl
  currentScope := reading law (fun session => session.scopes.current) fun _ => rfl
  lookupSymbol symbol := reading law
    (fun session => session.scopes.lookup session.store.symbols.name symbol) fun _ => rfl
  bindSymbol := bindSymbol regime law
  assignSymbol := assignSymbol regime law

variable {stack : EvalStack} {room : Nat} {calls : Calls}

theorem reach (stack : EvalStack) (room : Nat) (moment : Moment) :
    Confines words holds same Unit (stack.reach room moment) (stack.reach room moment) := by
  refine of_scopes_eq law (Upholds.reach regime stack room moment) fun session => ?_
  rw [CallStack.reach_eq]
  split <;> rfl

theorem tick (checks : calls.reach = stack.reach room) :
    Confines words holds same Unit calls.tick calls.tick := by
  have counting : Confines words holds same Unit countStep countStep :=
    of_scopes_eq law (.of_ok fun session => ⟨(), _, rfl, rfl, rfl⟩) fun _ => rfl
  have upholds := Upholds.enforceLimit regime
  have comparing : Confines words holds same Unit enforceLimit enforceLimit := by
    refine of_scopes_eq law upholds fun session => ?_
    rw [enforceLimit_eq]
    split <;> rfl
  have checking := reach regime law stack room .counted
  rw [← checks] at checking
  exact bind law counting fun _ => bind law checking fun _ => comparing

omit regime in
/-- A body that is run in a frame of its own keeps all frames that there were. -/
theorem within_keeps (checks : calls.reach = stack.reach room) (parent : Handle)
    {body body' : Routine α} (inner : Confines words holds same α body body') {session : Session}
    (under : session.Under words holds) :
    session.scopes.KeepsFrames same (fun _ => True)
      (Ending.left (calls.within parent body session)).scopes := by
  rcases calls.enterScope_keeps (fun _ => True) law checks parent session with
    ⟨mid, enters, pushed, store, vocabulary⟩ | ⟨failure, left, fails, kept⟩
  · let called : Session :=
      { mid with journal := mid.journal.push (.procedureApplied mid.scopes.depth) }
    have scopes : called.scopes = (session.scopes.push (some parent)).1 := pushed
    have confined :=
      inner.2 called (under.congr (congrArg _ store) vocabulary) _ _ (congrArg _ scopes)
    have kept := confined.left
    rw [scopes] at kept
    rw [within_eq enters]
    exact (Scopes.KeepsFrames.of_push law kept).trans law
      (calls.ensuring_keeps law checks body called)
  · rw [Calls.within, bind_error fails]
    exact kept

omit regime in
/-- The scope that was entered for the body is the one that is left after it. -/
theorem active_of_within (checks : calls.reach = stack.reach room) {parent : Handle}
    {body body' : Routine α} (inner : Confines words holds same α body body')
    {session left : Session} (under : session.Under words holds) {scope : Handle}
    {outer : List Handle} (current : session.scopes.active = scope :: outer) {value : α}
    (succeeds : calls.within parent body session = .ok value left) :
    left.scopes.active = session.scopes.active := by
  rcases calls.enterScope_keeps (fun _ => True) law checks parent session with
    ⟨mid, enters, pushed, store, vocabulary⟩ | ⟨failure, last, fails, -⟩
  · let called : Session :=
      { mid with journal := mid.journal.push (.procedureApplied mid.scopes.depth) }
    have scopes : called.scopes = (session.scopes.push (some parent)).1 := pushed
    have confined :=
      inner.2 called (under.congr (congrArg _ store) vocabulary) _ _ (congrArg _ scopes)
    rw [within_eq enters] at succeeds
    cases result : body called with
    | ok value last =>
      rw [result] at confined
      have two : last.scopes.active = _ :: scope :: outer :=
        (confined.2.trans (congrArg _ scopes)).trans (congrArg _ current)
      rw [ensuring_ok result] at succeeds
      rcases exitScope_cases checks two with ⟨final, done, below⟩ | ⟨final, failed, -, -⟩
      · rw [bind_ok done] at succeeds
        cases succeeds
        exact below.trans current.symm
      · rw [bind_error failed] at succeeds
        cases succeeds
    | error failure last =>
      rw [ensuring_error result] at succeeds
      cases ending : calls.exitScope last with
      | ok done final =>
        rw [bind_ok ending] at succeeds
        cases succeeds
      | error other final =>
        rw [bind_error ending] at succeeds
        cases succeeds
  · rw [Calls.within, bind_error fails] at succeeds
    cases succeeds

/-- A body run in a scope of its own is confined to the scope outside, which it does not change
either. -/
theorem within (checks : calls.reach = stack.reach room) (parent : Handle)
    {body body' : Routine α} (inner : Confines words holds same α body body') :
    Confines words holds same α (calls.within parent body) (calls.within parent body') := by
  refine ⟨Upholds.within regime checks parent inner.1, ?_⟩
  intro session under scope outer current
  have kept := within_keeps law checks parent inner under
  have others : session.scopes.KeepsFrames same (· ≠ scope)
      (Ending.left (calls.within parent body session)).scopes :=
    ⟨kept.owner, fun inside _ => kept.frames inside trivial⟩
  cases result : calls.within parent body session with
  | ok value left =>
    rw [result] at others
    exact ⟨others, active_of_within law checks inner under current result⟩
  | error failure left =>
    rw [result] at others
    exact others

/-- All that an evaluator does between its recursive calls is confined to the current scope. -/
theorem governedEvaluation (stack : EvalStack) :
    GovernedEvaluation stack stack.reach (fun _ => throw .stackExhausted) holds offers
      (Confines words holds same) where
  toGoverned := governed regime law
  reach := reach regime law stack
  exhausted _ := of_scopes_eq law (Upholds.throwing regime rfl) fun _ => rfl
  tick _ calls calls' checks checks' := by
    have confines := tick regime law checks
    exact ⟨fun session => confines.1 session, confines.2⟩
  within _ _ _ checks _ _ parent _ _ inner := by
    have confines := within regime law checks parent inner
    exact ⟨fun session => confines.1 session, confines.2⟩

/-- Evaluation is confined to the current scope. -/
theorem evaluate (stack : EvalStack) (room : Nat) (expr : Handle) :
    Confines words holds same Handle (evaluate stack room expr)
      (ScopedLisp.evaluate stack room expr) :=
  (governedEvaluation regime law stack).evaluate room expr

/-- Applying a procedure keeps all frames, the current one among them. -/
theorem applyProcedure_keeps (stack : EvalStack) (room : Nat) (params body scope args : Handle)
    {session : Session} (under : session.Under words holds) :
    let call := (stack.callsWithin room).applyProcedure params body scope args
    session.scopes.KeepsFrames same (fun _ => True) (Ending.left (call session)).scopes := by
  have related := (governedEvaluation regime law stack).calls room
  have running := bind law (related.bindParameters (governed regime law) params args)
    fun _ => related.evaluate body
  exact within_keeps law rfl scope running under

end Evaluation

end Confines

/-! ### Two regimes -/

/-- Nothing is asked. -/
theorem Regime.any (words : Vocabulary) :
    Regime words (fun _ => True) (fun _ => True) fun _ _ => True where
  plain _ _ := trivial
  sequence _ := trivial
  offered _ _ := trivial
  form _ _ _ := trivial
  operator _ _ _ := trivial
  calls _ _ := trivial
  digits _ := trivial
  grows _ _ := trivial

/-- Every session is under the regime that asks nothing. -/
theorem Session.under_any (session : Session) :
    session.Under session.vocabulary fun _ => True := ⟨rfl, fun _ _ => trivial⟩

/-- The record is no word for assignments. -/
def Record.NoAssignment (words : Vocabulary) (record : Record) : Prop :=
  ∀ name, record = .keyword name → words.form name ≠ .ok .assignment

/-- Where no assignment can be met, the regime holds that no form of assignment is offered. -/
theorem Session.LacksAssignment.regime {session : Session} (lacking : session.LacksAssignment) :
    Regime session.vocabulary (Record.NoAssignment session.vocabulary) (· ≠ .assignment)
      fun _ _ => True where
  plain record plain name := by
    rintro rfl
    cases plain
  sequence {record} reserved name := by
    rintro rfl
    rcases Vocabulary.classify_eq reserved with same | same
    · cases same
      exact lacking _ (.inl rfl)
    · cases same
  offered {name form} held found := by
    rintro rfl
    exact held name rfl found
  form _ _ _ := trivial
  operator _ _ _ := trivial
  calls _ _ := trivial
  digits _ := trivial
  grows _ _ := trivial

theorem Session.LacksAssignment.under {session : Session} (lacking : session.LacksAssignment) :
    session.Under session.vocabulary (Record.NoAssignment session.vocabulary) := by
  refine ⟨rfl, ?_⟩
  rintro record member name rfl
  exact lacking name (.inr member)

/-- Definitions do not leak between frames. In a session with some current scope, whatever is
evaluated and whatever comes of it, every frame stays in its place under its parent; the current one
may bind further symbols, and all others bind the symbols that they bound before. The objects that
these stand for change by assignments only: where no word for one can be met, the other frames stay
as they are.

A procedure call adds no symbol to any frame that there was before it, the current one included. -/
theorem definitions_confined (session : Session) (scope : Handle) (outer : List Handle)
    (current : session.scopes.active = scope :: outer) (stack : EvalStack) (room : Nat) :
    (∀ expr,
      let left := Ending.left (evaluate stack room expr session)
      session.scopes.Keeps left.scopes ∧
        session.scopes.KeepsFrames Frame.BindsAlike (· ≠ scope) left.scopes ∧
        (session.LacksAssignment → session.scopes.KeepsFrames Eq (· ≠ scope) left.scopes)) ∧
    ∀ params body captured args,
      let call := (stack.callsWithin room).applyProcedure params body captured args
      let left := Ending.left (call session)
      session.scopes.KeepsFrames Frame.BindsAlike (fun _ => True) left.scopes ∧
        (session.LacksAssignment → session.scopes.KeepsFrames Eq (fun _ => True) left.scopes) := by
  have any := Regime.any session.vocabulary
  have alike := FrameChange.bindsAlike fun _ => True
  constructor
  · intro expr
    refine ⟨(Leaves.evaluate .keeps stack room expr session).scopes, ?_, fun lacking => ?_⟩
    · have confines := Confines.evaluate any alike stack room expr
      exact (confines.2 session session.under_any scope outer current).left
    · have confines := Confines.evaluate lacking.regime .eq stack room expr
      exact (confines.2 session lacking.under scope outer current).left
  · intro params body captured args
    refine ⟨?_, fun lacking => ?_⟩
    · exact Confines.applyProcedure_keeps any alike stack room params body captured args
        session.under_any
    · exact Confines.applyProcedure_keeps lacking.regime .eq stack room params body captured args
        lacking.under

/-- A definition in a scope that has been entered within the global one. -/
theorem definitions_confined_of_inner :
    let global : Handle := ⟨.scopes, 0, 0⟩
    let inner : Handle := ⟨.scopes, 1, 0⟩
    let session := (do
      let _ ← enterScope none
      embed (.list [.atom "define", .atom "x", .integer 1])).after (.start .standard 0)
    let left := Ending.left (evaluate (.withRoom 9) 9 ⟨.objects, 6, 0⟩ session)
    session.scopes.active = [inner, global] ∧
      session.scopes.KeepsFrames Frame.BindsAlike (· ≠ inner) left.scopes ∧
      left.scopes.frames =
        #[⟨none, []⟩, ⟨some global, [(⟨.symbols, 0, 0⟩, ⟨.objects, 3, 0⟩)]⟩] := by
  intro global inner session left
  have current : session.scopes.active = [inner, global] := by
    simp only [session, embed_eq_embedded]
    decide +kernel
  have confined := (definitions_confined session inner [global] current (.withRoom 9) 9).1
  refine ⟨current, (confined ⟨.objects, 6, 0⟩).2.1, ?_⟩
  simp only [left, session, embed_eq_embedded]
  decide +kernel

end ScopedLisp
