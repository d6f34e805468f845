import ScopedLisp.Proofs.Program.Change
import ScopedLisp.Proofs.Program.Reachable
import ScopedLisp.Proofs.Session.Preparation
import ScopedLisp.Proofs.Store.Extension

/-!
# Data does not change

A session only ever gains. Whatever is evaluated, and however that ends, the records, symbols and
texts that there were stay in their places, and every frame stays under its parent and keeps binding
what it bound, though perhaps to another object. So an object that a session holds is printed in the
same way for as long as the session lives.
-/

namespace ScopedLisp

open Routine

/-- The later frame has the same parent and binds every symbol that the earlier one bound, and new
ones behind those. -/
structure Frame.Keeps (frame later : Frame) : Prop where
  parent : later.parent = frame.parent
  bound : frame.bindings.keys <+: later.bindings.keys

/-- The later scopes have every frame of the earlier ones in its place. -/
structure Scopes.Keeps (scopes later : Scopes) : Prop where
  owner : later.owner = scopes.owner
  frames : ∀ {i : Nat} {frame : Frame}, scopes.frames[i]? = some frame →
    ∃ frame', later.frames[i]? = some frame' ∧ frame.Keeps frame'

/-- The later session has everything that the earlier one had in its place. -/
structure Session.Keeps (session later : Session) : Prop where
  store : session.store.Extends later.store
  scopes : session.scopes.Keeps later.scopes

/-- The later session arises from the earlier one by evaluating source texts and data on any
machines, whatever the outcome. -/
inductive Session.LeadsTo (session : Session) : Session → Prop where
  | refl : LeadsTo session session
  | source {later : Session} (before : LeadsTo session later) (host : Host) (source : String) :
      LeadsTo session ((evaluateSource host source).after later)
  | datum {later : Session} (before : LeadsTo session later) (host : Host) (datum : Datum) :
      LeadsTo session ((evaluateDatum host datum).after later)

/-! ### Elementary changes -/

namespace Frame.Keeps

variable {frame mid later : Frame}

theorem refl (frame : Frame) : frame.Keeps frame := ⟨rfl, List.prefix_refl _⟩

theorem trans (first : frame.Keeps mid) (second : mid.Keeps later) : frame.Keeps later :=
  ⟨second.parent.trans first.parent, first.bound.trans second.bound⟩

theorem put (frame : Frame) (symbol value : Handle) :
    frame.Keeps { frame with bindings := frame.bindings.put symbol value } := by
  refine ⟨rfl, ?_⟩
  rw [Assoc.keys_put]
  split
  · exact List.prefix_refl _
  · exact List.prefix_append _ _

end Frame.Keeps

namespace Scopes.Keeps

variable {scopes mid later : Scopes}

/-- Other scopes may be active. -/
theorem of_eq (owner : later.owner = scopes.owner) (frames : later.frames = scopes.frames) :
    scopes.Keeps later := by
  refine ⟨owner, fun {i frame} inside => ⟨frame, ?_, .refl frame⟩⟩
  rw [frames]
  exact inside

theorem trans (first : scopes.Keeps mid) (second : mid.Keeps later) : scopes.Keeps later := by
  refine ⟨second.owner.trans first.owner, fun inside => ?_⟩
  obtain ⟨frame', inside', kept⟩ := first.frames inside
  obtain ⟨frame'', inside'', kept'⟩ := second.frames inside'
  exact ⟨frame'', inside'', kept.trans kept'⟩

theorem addFrame (scopes : Scopes) (parent : Option Handle) :
    scopes.Keeps (scopes.addFrame parent).1 := by
  refine ⟨rfl, fun {i frame} inside => ⟨frame, ?_, .refl frame⟩⟩
  obtain ⟨below, stored⟩ := Array.getElem?_eq_some_iff.mp inside
  rw [Scopes.addFrame, Array.getElem?_push_lt below, stored]

theorem write (scopes : Scopes) (place : Fin scopes.frames.size) (symbol value : Handle) :
    scopes.Keeps (scopes.write place symbol value) := by
  refine ⟨rfl, fun {i frame} inside => ?_⟩
  simp only [Scopes.write, Array.getElem?_modify, inside]
  by_cases here : place.val = i
  · simp only [if_pos here, Option.map_some]
    exact ⟨_, rfl, .put frame symbol value⟩
  · simp only [if_neg here]
    exact ⟨frame, rfl, .refl frame⟩

end Scopes.Keeps

/-- Changing the scopes, the journal and the count of steps alone. -/
theorem Session.Keeps.of_store_eq {session later : Session} (store : later.store = session.store)
    (scopes : session.scopes.Keeps later.scopes) : session.Keeps later := by
  refine ⟨?_, scopes⟩
  rw [store]
  exact .refl _

theorem HoldsOfChanges.keeps : HoldsOfChanges Session.Keeps where
  refl _ := .of_store_eq rfl (.of_eq rfl rfl)
  trans first second := ⟨first.store.trans second.store, first.scopes.trans second.scopes⟩
  allocate session record :=
    ⟨Store.WellFormed.insert_extends session.store record, .of_eq rfl rfl⟩
  write session place symbol value := .of_store_eq rfl (.write session.scopes place symbol value)
  addFrame session parent := .of_store_eq rfl (.addFrame session.scopes parent)
  active _ _ := .of_store_eq rfl (.of_eq rfl rfl)
  journal _ _ := .of_store_eq rfl (.of_eq rfl rfl)
  countStep _ := .of_store_eq rfl (.of_eq rfl rfl)

/-- Of the tables of names and texts an evaluation changes nothing at all. -/
theorem HoldsOfChanges.tables : HoldsOfChanges fun session later =>
    later.store.symbols = session.store.symbols ∧ later.store.texts = session.store.texts where
  refl _ := ⟨rfl, rfl⟩
  trans first second := ⟨second.1.trans first.1, second.2.trans first.2⟩
  allocate _ _ := ⟨rfl, rfl⟩
  write _ _ _ _ := ⟨rfl, rfl⟩
  addFrame _ _ := ⟨rfl, rfl⟩
  active _ _ := ⟨rfl, rfl⟩
  journal _ _ := ⟨rfl, rfl⟩
  countStep _ := ⟨rfl, rfl⟩

/-! ### Calls on the interpreter -/

/-- Whatever its outcome, the routine leaves everything in its place. -/
abbrev Keeping {α : Type} (routine : Routine α) : Prop := Leaves Session.Keeps α routine routine

namespace Keeping

theorem embed (datum : Datum) : Keeping (embed datum) := by
  intro session
  have grown := (EnlargesStore.embed datum session).extends_store
  obtain ⟨⟨store, left⟩, -⟩ := embed_changesStoreOnly datum session
  change session.Keeps ((Routine.embed datum).after session)
  rw [left] at grown ⊢
  exact ⟨grown, .of_eq rfl rfl⟩

theorem evaluateDatum (host : Host) (datum : Datum) : Keeping (evaluateDatum host datum) :=
  Leaves.evaluateDatum .keeps embed host datum

theorem evaluateSource (host : Host) (source : String) :
    Keeping (evaluateSource host source) :=
  Leaves.evaluateSource .keeps embed host source

end Keeping

namespace Session.LeadsTo

variable {session later : Session}

theorem keeps (leads : session.LeadsTo later) : session.Keeps later := by
  induction leads with
  | refl => exact HoldsOfChanges.keeps.refl session
  | source _ host source ih =>
    exact HoldsOfChanges.keeps.trans ih (Keeping.evaluateSource host source _)
  | datum _ host datum ih =>
    exact HoldsOfChanges.keeps.trans ih (Keeping.evaluateDatum host datum _)

theorem reachable (leads : session.LeadsTo later) (before : session.Reachable) :
    later.Reachable := by
  induction leads with
  | refl => exact before
  | source _ host source ih => exact ih.source host source
  | datum _ host datum ih => exact ih.datum host datum

end Session.LeadsTo

/-- Data does not change while a session lives. After any further evaluations, successful or not,
every record, symbol and text is where it was, and so is every frame, under the same parent and with
everything bound that was bound. An object that the session held is printed in the same way then; if
that fails, it fails because an integer has too many digits.

One evaluation of an expression keeps everything as well, and it leaves the tables of symbols and
texts exactly as they were. -/
theorem data_immutable (session : Session) (reachable : session.Reachable) :
    (∀ later, session.LeadsTo later →
      session.Keeps later ∧
        ∀ h, session.store.heap.owns h = true →
          later.store.render h = session.store.render h ∧
            ∀ failure, session.store.render h = .error failure → failure = .tooManyDigits) ∧
    ∀ stack room expr,
      let left := Ending.left (evaluate stack room expr session)
      session.Keeps left ∧ left.store.symbols = session.store.symbols ∧
        left.store.texts = session.store.texts := by
  constructor
  · intro later leads
    have wf := reachable.wellFormed
    have kept := leads.keeps
    refine ⟨kept, fun h owned => ?_⟩
    have held := Store.holds_of_owns owned
    constructor
    · apply wf.store.render_of_extends kept.store held
      intro object params body scope stored
      obtain ⟨_, _, rfl⟩ := wf.captured stored
      rfl
    · intro failure failed
      have digits : FailsWithin (· == .tooManyDigits) (session.store.render h) :=
        wf.store.render_failsWithin rfl held
      exact beq_iff_eq.mp (digits failure failed)
  · intro stack room expr
    exact ⟨Leaves.evaluate .keeps stack room expr session,
      Leaves.evaluate .tables stack room expr session⟩

/-- An assignment gives a variable another value. The list that was its value before is still there
and printed as before. -/
theorem data_immutable_of_assignment :
    let x : Handle := ⟨.symbols, 0, 0⟩
    let list : Handle := ⟨.objects, 5, 0⟩
    let session := (evaluateDatum .standard
      (.list [.atom "define", .atom "x", (Datum.list [.integer 1]).quoted])).after
        (.start .standard 0)
    let later := (evaluateDatum .standard
      (.list [.atom "set!", .atom "x", .integer 3])).after session
    session.Reachable ∧ session.LeadsTo later ∧ session.store.heap.owns list = true ∧
      session.scopes.find? x = .ok (some (⟨.scopes, 0, 0⟩, list)) ∧
      later.scopes.find? x = .ok (some (⟨.scopes, 0, 0⟩, ⟨.objects, 13, 0⟩)) ∧
      session.Keeps later ∧ later.store.render list = session.store.render list := by
  intro x list session later
  have reachable : session.Reachable := .datum (.start .standard 0) _ _
  have leads : session.LeadsTo later := .datum .refl _ _
  have held : session.store.heap.owns list = true ∧
      session.scopes.find? x = .ok (some (⟨.scopes, 0, 0⟩, list)) ∧
      later.scopes.find? x = .ok (some (⟨.scopes, 0, 0⟩, ⟨.objects, 13, 0⟩)) := by
    simp only [session, later, evaluateDatum, embed_eq_embedded]
    decide +kernel
  obtain ⟨kept, printed⟩ := (data_immutable session reachable).1 later leads
  exact ⟨reachable, leads, held.1, held.2.1, held.2.2, kept, (printed list held.1).1⟩

end ScopedLisp
