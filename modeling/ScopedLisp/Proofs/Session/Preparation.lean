import ScopedLisp.Proofs.Session.Embedding
import ScopedLisp.Proofs.Store.WellFormed

/-!
# Prepared sessions

Data may be placed in a session, names and texts entered, and scopes entered and left again, without
anything being evaluated. The tables and the frames grow by this. What was in them stays, and all
else is left as it was, the active scopes included.
-/

namespace ScopedLisp

open Routine

/-- The second session arises from the first one without an evaluation. Every scope that is entered
on the way is left again, whatever is done in between. -/
inductive Session.Prepares : Session → Session → Prop where
  | refl (session : Session) : Prepares session session
  | embed {session later : Session} (before : Prepares session later) (datum : Datum) :
    Prepares session ((Routine.embed datum).after later)
  | internSymbol {session later : Session} (before : Prepares session later) (name : String) :
    Prepares session ((Routine.internSymbol name).after later)
  | internAtom {session later : Session} (before : Prepares session later) (name : String) :
    Prepares session ((Routine.internAtom name).after later)
  | insertText {session later : Session} (before : Prepares session later) (text : String) :
    Prepares session ((Routine.insertText text).after later)
  | scope {session later inner last : Session} (before : Prepares session later)
    {parent : Option Handle} {scope : Handle}
    (entered : Routine.enterScope parent later = .ok scope inner) (within : Prepares inner last) :
    Prepares session (Routine.exitScope.after last)

/-- The later store holds what the earlier one held, and no name twice if that did not either. -/
structure Store.Enlarges (store later : Store) : Prop where
  extends_store : store.Extends later
  nodup : store.symbols.names.Nodup → later.symbols.names.Nodup

/-- The later session is the earlier one with more in its tables and with more frames. -/
structure Session.Enlarges (session later : Session) : Prop where
  store : session.store.Enlarges later.store
  scopesOwner : later.scopes.owner = session.scopes.owner
  frames : session.scopes.frames.toList <+: later.scopes.frames.toList
  vocabulary : later.vocabulary = session.vocabulary
  stepLimit : later.stepLimit = session.stepLimit
  steps : later.steps = session.steps

namespace Store.Enlarges

variable {store mid later : Store}

theorem refl (store : Store) : store.Enlarges store := ⟨.refl store, id⟩

theorem trans (first : store.Enlarges mid) (second : mid.Enlarges later) : store.Enlarges later :=
  ⟨first.extends_store.trans second.extends_store, second.nodup ∘ first.nodup⟩

/-- Inserting a record enlarges a store. -/
theorem insert (store : Store) (record : Record) :
    store.Enlarges { store with heap := (store.heap.insert record).1 } :=
  ⟨WellFormed.insert_extends store record, id⟩

/-- Interning a name enlarges a store. -/
theorem intern (store : Store) (name : String) :
    store.Enlarges { store with symbols := (store.symbols.intern name).1 } :=
  ⟨WellFormed.intern_extends store name, fun nodup => Symbols.nodup_intern nodup name⟩

/-- Entering a text enlarges a store. -/
theorem enter (store : Store) (text : String) :
    store.Enlarges { store with texts := (store.texts.insert text).1 } :=
  ⟨WellFormed.enter_extends store text, id⟩

end Store.Enlarges

/-! ### Placing data -/

namespace Routine

/-- Whatever the ending, the store that is left is larger. -/
def EnlargesStore {α : Type} (routine : Routine α) : Prop :=
  ∀ session : Session, session.store.Enlarges (routine.after session).store

namespace EnlargesStore

variable {α β : Type}

/-- A routine followed by another enlarges the store if both do. -/
theorem bind {first : Routine α} {next : α → Routine β} (head : EnlargesStore first)
    (tail : ∀ value, EnlargesStore (next value)) : EnlargesStore (first >>= next) :=
  @after_bind _ _ (fun session later => session.store.Enlarges later.store) .trans _ _ head tail

theorem pure (value : α) : EnlargesStore (pure value) := fun session => .refl session.store

theorem fail (failure : Failure) : EnlargesStore (throw failure : Routine α) :=
  fun session => .refl session.store

theorem allocate (record : Record) : EnlargesStore (allocate record) :=
  fun session => .insert session.store record

theorem allocateList (items : List Handle) (tail : Option Handle) :
    EnlargesStore (allocateList items tail) := by
  induction items with
  | nil => exact fun session => .refl session.store
  | cons item rest ih =>
    rw [allocateList_cons]
    exact ih.bind fun _ => .allocate _

theorem internSymbol (name : String) : EnlargesStore (internSymbol name) :=
  fun session => .intern session.store name

theorem internAtom (name : String) : EnlargesStore (internAtom name) := by
  have reading : EnlargesStore (inspect fun _ words => .ok (words.classify name)) :=
    fun session => .refl session.store
  apply reading.bind
  intro reserved
  cases reserved with
  | some record => exact .pure record
  | none => exact (internSymbol name).bind fun _ => .pure _

theorem insertText (text : String) : EnlargesStore (insertText text) :=
  fun session => .enter session.store text

/-- The steps by which data are placed in the heap only enlarge the store. -/
theorem holdsOfPlacing : HoldsOfPlacing fun _ => EnlargesStore where
  pure := pure
  bind := bind
  fail _ := fail _
  allocate := allocate
  allocateList := allocateList
  insertText := insertText
  internAtom := internAtom

/-- Embedding a datum only enlarges the store, also where it fails. -/
theorem embed (datum : Datum) : EnlargesStore (embed datum) := holdsOfPlacing.embed datum

end EnlargesStore

end Routine

/-! ### Prepared sessions -/

namespace Session

namespace Enlarges

variable {session mid later : Session}

theorem refl (session : Session) : session.Enlarges session :=
  ⟨.refl _, rfl, List.prefix_refl _, rfl, rfl, rfl⟩

theorem trans (first : session.Enlarges mid) (second : mid.Enlarges later) :
    session.Enlarges later :=
  ⟨first.store.trans second.store, second.scopesOwner.trans first.scopesOwner,
    first.frames.trans second.frames, second.vocabulary.trans first.vocabulary,
    second.stepLimit.trans first.stepLimit, second.steps.trans first.steps⟩

/-- A routine that changes only the store leaves the same scopes active. -/
theorem after_store {α : Type} {routine : Routine α}
    (before : session.Enlarges later ∧ later.scopes.active = session.scopes.active)
    (only : ChangesStoreOnly routine) (larger : EnlargesStore routine) :
    session.Enlarges (routine.after later) ∧
      (routine.after later).scopes.active = session.scopes.active := by
  have grown := larger later
  obtain ⟨store, left⟩ := (only later).1
  rw [left] at grown ⊢
  exact ⟨before.1.trans ⟨grown, rfl, List.prefix_refl _, rfl, rfl, rfl⟩, before.2⟩

end Enlarges

end Session

theorem internSymbol_changesStoreOnly (name : String) : ChangesStoreOnly (internSymbol name) :=
  .of_ok fun _ => ⟨_, _, rfl⟩

theorem insertText_changesStoreOnly (text : String) : ChangesStoreOnly (insertText text) :=
  .of_ok fun _ => ⟨_, _, rfl⟩

/-- Entering a scope keeps what there was and puts the new scope on top. -/
theorem enterScope_enlarges {parent : Option Handle} {session left : Session} {scope : Handle}
    (entered : enterScope parent session = .ok scope left) :
    session.Enlarges left ∧ left.scopes.active = scope :: session.scopes.active := by
  cases found : session.scopes.parentFor parent with
  | error failure =>
    rw [enterScope, bind_error (makeFrame_error found)] at entered
    cases entered
  | ok link =>
    rw [enterScope, bind_ok (makeFrame_ok found)] at entered
    cases entered
    refine ⟨⟨.refl _, rfl, ?_, rfl, rfl, rfl⟩, rfl⟩
    simp only [Scopes.addFrame, Scopes.activate, Array.toList_push]
    exact List.prefix_append _ _

/-- Leaving one of several scopes keeps what there was and uncovers the scope below. -/
theorem exitScope_enlarges {session : Session} {scope next : Handle} {outer : List Handle}
    (two : session.scopes.active = scope :: next :: outer) :
    session.Enlarges (exitScope.after session) ∧
      (exitScope.after session).scopes.active = next :: outer := by
  unfold Routine.after
  rw [exitScope, bind_ok (leave_eq two)]
  exact ⟨⟨.refl _, rfl, List.prefix_refl _, rfl, rfl, rfl⟩, rfl⟩

/-- Preparation makes a session larger and leaves the same scopes active. -/
theorem Session.Prepares.enlarges {session later : Session} (prepares : session.Prepares later)
    (entered : session.scopes.active ≠ []) :
    session.Enlarges later ∧ later.scopes.active = session.scopes.active := by
  induction prepares with
  | refl session => exact ⟨.refl session, rfl⟩
  | embed _ datum ih =>
    exact Enlarges.after_store (ih entered) (embed_changesStoreOnly datum) (.embed datum)
  | internSymbol _ name ih =>
    exact Enlarges.after_store (ih entered) (internSymbol_changesStoreOnly name)
      (.internSymbol name)
  | internAtom _ name ih =>
    exact Enlarges.after_store (ih entered) (ChangesStoreOnly.internAtom name) (.internAtom name)
  | insertText _ text ih =>
    exact Enlarges.after_store (ih entered) (insertText_changesStoreOnly text) (.insertText text)
  | scope before opened within ih ih' =>
    obtain ⟨larger, same⟩ := ih entered
    obtain ⟨opening, active⟩ := enterScope_enlarges opened
    obtain ⟨inside, kept⟩ := ih' (active ▸ List.cons_ne_nil _ _)
    obtain ⟨next, outer, shape⟩ := List.exists_cons_of_ne_nil entered
    have two := kept.trans (active.trans (congrArg _ (same.trans shape)))
    obtain ⟨closing, left⟩ := exitScope_enlarges two
    refine ⟨larger.trans (opening.trans (inside.trans closing)), ?_⟩
    rw [left, shape]

end ScopedLisp
