import ScopedLisp.Proofs.Ending
import ScopedLisp.Proofs.Scopes.Search
import ScopedLisp.Proofs.Store.WellFormed

/-!
# Well-formed sessions

The invariant of a session: its store is well-formed, every scope that a procedure has captured,
that a frame has for its parent or that is active was issued, frames bind issued symbols to issued
objects, a parent is older than its child, and some scope is active. Each change that a session
undergoes preserves it, and every search in a well-formed session ends without a fault.
-/

namespace ScopedLisp

theorem Assoc.eq_or_mem_of_mem_put {κ ν : Type} [DecidableEq κ] {entries : Assoc κ ν} {key : κ}
    {value : ν} {entry : κ × ν} (member : entry ∈ entries.put key value) :
    entry = (key, value) ∨ entry ∈ entries := by
  induction entries with
  | nil => exact .inl (List.mem_singleton.mp member)
  | cons first rest ih =>
    unfold put at member
    split at member
    · next same =>
      rcases List.mem_cons.mp member with rfl | member
      · exact .inl (by rw [same])
      · exact .inr (List.mem_cons_of_mem _ member)
    · rcases List.mem_cons.mp member with rfl | member
      · exact .inr List.mem_cons_self
      · exact (ih member).imp id (List.mem_cons_of_mem _)

theorem Assoc.mem_of_get? {κ ν : Type} [DecidableEq κ] {entries : Assoc κ ν} {key : κ} {value : ν}
    (found : entries.get? key = some value) : (key, value) ∈ entries := by
  induction entries with
  | nil => cases found
  | cons first rest ih =>
    unfold get? at found
    split at found
    · next same =>
      cases found
      rw [← same]
      exact List.mem_cons_self
    · exact List.mem_cons_of_mem _ (ih found)

/-- The parent of a frame at position `i` is older, and what it binds was issued. -/
structure Frame.RefersBelow (store : Store) (owner i : Nat) (frame : Frame) : Prop where
  parent : ∀ {scope : Handle}, frame.parent = some scope → scope.IssuedBefore .scopes owner i
  bindings : ∀ binding ∈ frame.bindings,
    binding.1.IssuedBefore .symbols store.symbols.owner store.symbols.size ∧
      store.Holds binding.2

theorem Frame.RefersBelow.mono {store store' : Store} {owner i : Nat} {frame : Frame}
    (below : frame.RefersBelow store owner i) (grown : store.Extends store') :
    frame.RefersBelow store' owner i := by
  refine ⟨below.parent, fun binding member => ?_⟩
  obtain ⟨symbol, value⟩ := below.bindings binding member
  exact ⟨grown.symbol_issued symbol, grown.holds value⟩

namespace Session

structure WellFormed (session : Session) : Prop where
  store : session.store.WellFormed
  captured : ∀ {h params body scope : Handle},
    session.store.heap.get h = .ok (.procedure params body scope) → session.scopes.Holds scope
  frames : ∀ {i : Nat} {frame : Frame}, session.scopes.frames[i]? = some frame →
    frame.RefersBelow session.store session.scopes.owner i
  entered : session.scopes.active ≠ []
  active : ∀ scope ∈ session.scopes.active, session.scopes.Holds scope

/-- What the one session has issued the other has issued too. -/
structure Extends (session session' : Session) : Prop where
  store : session.store.Extends session'.store
  owner : session'.scopes.owner = session.scopes.owner
  frames : session.scopes.frames.size ≤ session'.scopes.frames.size

namespace Extends

variable {session session' session'' : Session}

theorem refl (session : Session) : session.Extends session := ⟨.refl _, rfl, Nat.le_refl _⟩

theorem trans (first : session.Extends session') (second : session'.Extends session'') :
    session.Extends session'' :=
  ⟨first.store.trans second.store, second.owner.trans first.owner,
    Nat.le_trans first.frames second.frames⟩

/-- Changing the journal or the count of steps alone. -/
theorem of_eq (store : session'.store = session.store) (scopes : session'.scopes = session.scopes) :
    session.Extends session' := by
  refine ⟨?_, by rw [scopes], Nat.le_of_eq (by rw [scopes])⟩
  rw [store]
  exact .refl _

theorem holds {h : Handle} (grown : session.Extends session') (held : session.store.Holds h) :
    session'.store.Holds h := grown.store.holds held

theorem scope_holds {scope : Handle} (grown : session.Extends session')
    (held : session.scopes.Holds scope) : session'.scopes.Holds scope := by
  unfold Scopes.Holds
  rw [grown.owner]
  exact held.mono grown.frames

end Extends

namespace WellFormed

variable {session session' : Session}

theorem congr (wf : session.WellFormed) (store : session'.store = session.store)
    (scopes : session'.scopes = session.scopes) : session'.WellFormed := by
  obtain ⟨store', scopes', _, _, _, _⟩ := session'
  obtain rfl : store' = session.store := store
  obtain rfl : scopes' = session.scopes := scopes
  exact ⟨wf.store, wf.captured, wf.frames, wf.entered, wf.active⟩

/-! ### Changes -/

/-- A record that refers to issued objects and scopes may be added to the heap. -/
theorem insert (wf : session.WellFormed) {record : Record}
    (below : record.RefersBelow session.store session.store.heap.size) (other : record ≠ .nil)
    (captured : ∀ {params body scope}, record = .procedure params body scope →
      session.scopes.Holds scope) :
    { session with store := { session.store with
      heap := (session.store.heap.insert record).1 } }.WellFormed := by
  have grown := Store.WellFormed.insert_extends session.store record
  refine ⟨wf.store.insert below other, ?_, fun inside => (wf.frames inside).mono grown, wf.entered,
    wf.active⟩
  intro h params body scope stored
  obtain ⟨i, _, rfl, inside⟩ := Heap.exists_index_of_get stored
  rw [Heap.insert, Array.getElem?_push] at inside
  split at inside
  · cases inside
    exact captured rfl
  · exact wf.captured (Heap.get_handleAt_iff.mpr inside)

/-- The tables of symbols and texts may grow. -/
theorem grow (wf : session.WellFormed) {symbols : Symbols} {texts : Texts}
    (grown : session.store.Extends { session.store with symbols, texts }) :
    { session with store := { session.store with symbols, texts } }.WellFormed :=
  ⟨wf.store.grow grown, wf.captured, fun inside => (wf.frames inside).mono grown, wf.entered,
    wf.active⟩

/-- An issued symbol may be bound to an issued object in any frame. -/
theorem write (wf : session.WellFormed) (place : Fin session.scopes.frames.size)
    {symbol value : Handle}
    (issued : symbol.IssuedBefore .symbols session.store.symbols.owner session.store.symbols.size)
    (held : session.store.Holds value) :
    { session with scopes := session.scopes.write place symbol value }.WellFormed := by
  refine ⟨wf.store, fun stored => (wf.captured stored).write place symbol value, ?_, wf.entered,
    fun scope member => (wf.active scope member).write place symbol value⟩
  intro i frame inside
  simp only [Scopes.write, Array.getElem?_modify] at inside
  split at inside
  · obtain ⟨former, old, rfl⟩ := Option.map_eq_some_iff.mp inside
    obtain ⟨parent, bindings⟩ := wf.frames old
    refine ⟨parent, fun binding member => ?_⟩
    rcases Assoc.eq_or_mem_of_mem_put member with rfl | kept
    · exact ⟨issued, held⟩
    · exact bindings binding kept
  · exact wf.frames inside

theorem addFrame (wf : session.WellFormed) {link : Option Handle}
    (held : ∀ {scope}, link = some scope → session.scopes.Holds scope) :
    { session with scopes := (session.scopes.addFrame link).1 }.WellFormed := by
  refine ⟨wf.store, fun stored => (wf.captured stored).addFrame link, ?_, wf.entered,
    fun scope member => (wf.active scope member).addFrame link⟩
  intro i frame inside
  simp only [Scopes.addFrame, Array.getElem?_push] at inside
  split at inside
  · next same =>
    cases inside
    subst same
    exact ⟨held, fun binding member => by cases member⟩
  · exact wf.frames inside

theorem withActive (wf : session.WellFormed) {active : List Handle} (entered : active ≠ [])
    (held : ∀ scope ∈ active, session.scopes.Holds scope) :
    { session with scopes := { session.scopes with active } }.WellFormed :=
  ⟨wf.store, wf.captured, wf.frames, entered, held⟩

/-! ### Searches -/

theorem position_eq {scope : Handle} (held : session.scopes.Holds scope) :
    ∃ place, session.scopes.position scope = .ok place := by
  obtain ⟨place, found⟩ := held.position?
  refine ⟨place, ?_⟩
  unfold Scopes.position
  rw [found]

theorem parentsOlder (wf : session.WellFormed) : session.scopes.ParentsOlder :=
  fun inside above => (wf.frames inside).parent above

theorem current_eq (wf : session.WellFormed) :
    ∃ scope, session.scopes.current = .ok scope ∧ session.scopes.Holds scope := by
  cases shape : session.scopes.active with
  | nil => exact absurd shape wf.entered
  | cons scope outer =>
    refine ⟨scope, ?_, wf.active scope (shape ▸ List.mem_cons_self)⟩
    unfold Scopes.current
    rw [shape]

/-- The lexical chain of the current scope ends, and every frame on it is sound. -/
theorem chain_sound (wf : session.WellFormed) :
    session.scopes.chain.failure = none ∧
      ∀ entry ∈ session.scopes.chain.items, session.scopes.Holds entry.1 ∧
        ∃ i, entry.2.RefersBelow session.store session.scopes.owner i := by
  refine ⟨Scopes.chain_failure wf.parentsOlder wf.active wf.entered, fun entry member => ?_⟩
  obtain ⟨i, below, same, inside⟩ :=
    Scopes.exists_index_of_frame (Scopes.frame_of_mem_chain member)
  exact ⟨⟨i, below, same⟩, i, wf.frames inside⟩

/-- A search for a symbol ends, and what it finds was issued. -/
theorem find?_eq (wf : session.WellFormed) (symbol : Handle) :
    ∃ found, session.scopes.find? symbol = .ok found ∧
      ∀ {scope value}, found = some (scope, value) →
        session.scopes.Holds scope ∧ session.store.Holds value := by
  obtain ⟨found, search⟩ := Scopes.exists_find?_eq wf.chain_sound.1 symbol
  refine ⟨found, search, ?_⟩
  intro scope value same
  rw [same] at search
  obtain ⟨frame, stored, known⟩ := Scopes.find?_eq_some search
  obtain ⟨i, below, place, inside⟩ := Scopes.exists_index_of_frame stored
  exact ⟨⟨i, below, place⟩, ((wf.frames inside).bindings _ (Assoc.mem_of_get? known)).2⟩

section Symbols

variable {symbol : Handle}
  (issued : symbol.IssuedBefore .symbols session.store.symbols.owner session.store.symbols.size)
include issued

theorem unbound_failsSafely {α : Type} :
    FailsSafely (Scopes.unbound session.store.symbols.name symbol : Except Failure α) := by
  obtain ⟨name, named⟩ := Store.name_eq session.store issued
  exact .after_ok named (.error rfl)

/-- An issued symbol stands for an issued object, or it is unbound. -/
theorem lookup_failsSafely (wf : session.WellFormed) :
    FailsSafely (session.scopes.lookup session.store.symbols.name symbol) ∧
      ∀ {value}, session.scopes.lookup session.store.symbols.name symbol = .ok value →
        session.store.Holds value := by
  obtain ⟨found, search, sound⟩ := wf.find?_eq symbol
  rw [Scopes.lookup_eq, search]
  cases found with
  | none => exact ⟨unbound_failsSafely issued, fun same => absurd same (bind_throw_ne_ok _ _ _)⟩
  | some hit =>
    refine ⟨.ok _, ?_⟩
    rintro value ⟨⟩
    exact (sound rfl).2

theorem bindingPlace_failsSafely (wf : session.WellFormed) :
    FailsSafely (session.scopes.bindingPlace session.store.symbols.name symbol) := by
  obtain ⟨found, search, sound⟩ := wf.find?_eq symbol
  rw [Scopes.bindingPlace_eq]
  refine .after_ok search ?_
  cases found with
  | none => exact unbound_failsSafely issued
  | some hit =>
    obtain ⟨place, position⟩ := position_eq (sound rfl).1
    rw [Scopes.placeFound, position]
    exact .ok _

end Symbols

theorem currentPlace_eq (wf : session.WellFormed) :
    ∃ place, session.scopes.currentPlace = .ok place := by
  obtain ⟨scope, current, held⟩ := wf.current_eq
  obtain ⟨place, position⟩ := position_eq held
  refine ⟨place, ?_⟩
  unfold Scopes.currentPlace
  rw [current]
  exact position

end WellFormed

end Session

end ScopedLisp
