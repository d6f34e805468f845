import Mathlib.Data.List.Forall2
import ScopedLisp.Proofs.Datum.Leaves
import ScopedLisp.Proofs.Session.Embedding
import ScopedLisp.Proofs.Store.WellFormed

/-!
# Data in a store

`ShownAt` says that the object at a handle is what a datum denotes. It does not tell a datum from
its merged spelling, it holds on when the store grows, and it holds of what `embed` returns, in
any session whose heap begins with the empty list.
-/

namespace ScopedLisp

/-- A record keeps its name while the store grows. -/
theorem Record.IsNamed.mono {store store' : Store} {name : String} {record : Record}
    (named : record.IsNamed store name) (grown : store.Extends store') :
    record.IsNamed store' name := by
  refine named.imp id (.imp id ?_)
  rintro ⟨symbol, rfl, known⟩
  exact ⟨symbol, rfl, grown.symbolName known⟩

namespace Datum

mutual

/-- The object at the handle is what the datum denotes. -/
def ShownAt (store : Store) : Datum → Handle → Prop
  | .list items, h => ShownFrom store items (store.heap.get · = .ok .nil) h
  | .dotted items tail, h => ShownFrom store items (ShownAt store tail) h
  | .atom name, h => ∃ record, store.heap.get h = .ok record ∧ record.IsNamed store name
  | .integer value, h => store.heap.get h = .ok (.integer value)
  | .boolean value, h => store.heap.get h = .ok (.boolean value)
  | .string text, h => ∃ t, store.heap.get h = .ok (.string t) ∧ store.texts.get t = .ok text
  | .character text, h => store.heap.get h = .ok (.character text)
  | .foreign _, _ => False

/-- Pairs lead from the handle through what the items denote to where `ending` holds. -/
def ShownFrom (store : Store) : List Datum → (Handle → Prop) → Handle → Prop
  | [], ending, h => ending h
  | datum :: rest, ending, h => ∃ car cdr, store.heap.get h = .ok (.pair car cdr) ∧
      ShownAt store datum car ∧ ShownFrom store rest ending cdr

end

/-- Items in two parts are shown one part after the other. -/
theorem shownFrom_append (store : Store) (items more : List Datum) (ending : Handle → Prop) :
    ShownFrom store (items ++ more) ending =
      ShownFrom store items (ShownFrom store more ending) := by
  induction items with
  | nil =>
    funext h
    rfl
  | cons datum rest ih =>
    funext h
    rw [List.cons_append, ShownFrom, ShownFrom, ih]

/-- A merged list is shown by the pairs that show the items and then the tail. -/
theorem shownAt_following (store : Store) (items : List Datum) (tail : Datum) :
    ShownAt store (following items tail) = ShownFrom store items (ShownAt store tail) := by
  funext h
  cases tail with
  | list more => rw [following, ShownAt, shownFrom_append]; rfl
  | dotted more last => rw [following, ShownAt, shownFrom_append]; rfl
  | _ =>
    rw [following_of_isLeaf rfl]
    split
    · next none =>
      rw [List.isEmpty_iff.mp none]
      rfl
    · rfl

mutual

/-- An object shows a datum exactly if it shows its merged form. -/
theorem shownAt_merged (store : Store) (datum : Datum) :
    ShownAt store datum.merged = ShownAt store datum := by
  match datum with
  | .list items =>
    funext h
    rw [merged, ShownAt, ShownAt, shownFrom_merged store items]
  | .dotted items tail =>
    rw [merged, shownAt_following, shownFrom_merged store items, shownAt_merged store tail]
    rfl
  | .atom _ | .integer _ | .boolean _ | .string _ | .character _ | .foreign _ => rfl

theorem shownFrom_merged (store : Store) (items : List Datum) (ending : Handle → Prop) :
    ShownFrom store (mergedAll items) ending = ShownFrom store items ending := by
  match items with
  | [] => rfl
  | datum :: rest =>
    funext h
    rw [mergedAll, ShownFrom, ShownFrom, shownAt_merged store datum,
      shownFrom_merged store rest ending]

end

/-! ### Growing stores -/

section Growing

variable {store store' : Store} (grown : store.Extends store')
include grown

mutual

/-- What an object shows stays so while the store grows. -/
theorem ShownAt.mono {datum : Datum} {h : Handle} (shown : datum.ShownAt store h) :
    datum.ShownAt store' h := by
  match datum with
  | .list items => exact ShownFrom.mono (fun _ stored => grown.heap.get stored) shown
  | .dotted items tail => exact ShownFrom.mono (fun _ last => ShownAt.mono last) shown
  | .atom name =>
    obtain ⟨record, stored, named⟩ := shown
    exact ⟨record, grown.heap.get stored, named.mono grown⟩
  | .integer _ | .boolean _ | .character _ => exact grown.heap.get shown
  | .string text =>
    obtain ⟨t, stored, known⟩ := shown
    exact ⟨t, grown.heap.get stored, grown.text known⟩
  | .foreign _ => exact shown

theorem ShownFrom.mono {items : List Datum} {ending ending' : Handle → Prop} {h : Handle}
    (later : ∀ last, ending last → ending' last) (shown : ShownFrom store items ending h) :
    ShownFrom store' items ending' h := by
  match items with
  | [] => exact later h shown
  | datum :: rest =>
    obtain ⟨car, cdr, stored, first, others⟩ := shown
    exact ⟨car, cdr, grown.heap.get stored, ShownAt.mono first, ShownFrom.mono later others⟩

end

end Growing

end Datum

/-! ### Embedding -/

/-- The first record of the heap is the empty list, as it is in every well-formed store. -/
def Store.BeginsWithNil (store : Store) : Prop := store.heap.get store.heap.nil = .ok .nil

theorem Store.Extends.beginsWithNil {store store' : Store} (grown : store.Extends store')
    (begins : store.BeginsWithNil) : store'.BeginsWithNil := by
  have stored := grown.heap.get begins
  rw [Heap.nil, Heap.handleAt, ← grown.heap.owner] at stored
  exact stored

/-- The first object of a well-formed store is the empty list. -/
theorem Store.WellFormed.beginsWithNil {store : Store} (wf : store.WellFormed) :
    store.BeginsWithNil :=
  Heap.get_handleAt_iff.mpr ((wf.nil_iff 0).mpr rfl)

/-- Started in the session, the routine returns a value that meets the goal, and the heap grows by
`growth` records or more. -/
def Places (session : Session) {α : Type} (routine : Routine α) (growth : Nat)
    (goal : α → Store → Prop) : Prop :=
  ∃ value left, routine session = .ok value left ∧ session.store.Extends left.store ∧
    session.store.heap.size + growth ≤ left.store.heap.size ∧ goal value left.store

namespace Places

open Routine

variable {session : Session} {α β : Type} {growth more : Nat} {goal : α → Store → Prop}

/-- The second routine starts from a store that has grown, and the growth of the two adds up. -/
theorem bind {first : Routine α} {next : α → Routine β} {goal' : β → Store → Prop}
    (head : Places session first growth goal)
    (tail : ∀ value mid, session.store.Extends mid.store → goal value mid.store →
      Places mid (next value) more goal') :
    Places session (first >>= next) (growth + more) goal' := by
  obtain ⟨value, mid, result, grown, larger, met⟩ := head
  obtain ⟨other, left, ending, later, enough, reached⟩ := tail value mid grown met
  exact ⟨other, left, (bind_ok result).trans ending, grown.trans later, by omega, reached⟩

theorem imp {goal' : α → Store → Prop} {routine : Routine α}
    (places : Places session routine growth goal)
    (weaker : ∀ value store, session.store.Extends store → goal value store → goal' value store) :
    Places session routine growth goal' := by
  obtain ⟨value, left, result, grown, larger, met⟩ := places
  exact ⟨value, left, result, grown, larger, weaker value left.store grown met⟩

theorem fewer {less : Nat} {routine : Routine α} (places : Places session routine growth goal)
    (enough : less ≤ growth) : Places session routine less goal := by
  obtain ⟨value, left, result, grown, larger, met⟩ := places
  exact ⟨value, left, result, grown, by omega, met⟩

theorem pure {value : α} (met : goal value session.store) :
    Places session (pure value) 0 goal :=
  ⟨value, session, rfl, .refl _, Nat.le_refl _, met⟩

/-- Storing a record takes one place. -/
theorem allocate (record : Record) :
    Places session (allocate record) 1 fun h store => store.heap.get h = .ok record := by
  refine ⟨_, _, rfl, Store.WellFormed.insert_extends session.store record, ?_,
    Heap.get_insert_self _ _⟩
  simp only [Heap.size, Array.size_push]
  exact Nat.le_refl _

/-- Naming an atom takes no place in the heap. -/
theorem internAtom (name : String) :
    Places session (internAtom name) 0 fun record store => record.IsNamed store name := by
  have reading : inspect (fun _ words => .ok (words.classify name)) session =
      .ok (session.vocabulary.classify name) session := inspect_ok rfl
  cases reserved : session.vocabulary.classify name with
  | some record =>
    have named : record.IsNamed session.store name :=
      (Vocabulary.classify_eq reserved).imp id .inl
    refine ⟨record, session, ?_, .refl _, Nat.le_refl _, named⟩
    rw [Routine.internAtom, bind_ok reading, reserved]
    rfl
  | none =>
    have known := session.store.symbols.name_intern name
    let entered := { session.store with symbols := (session.store.symbols.intern name).1 }
    refine ⟨_, { session with store := entered }, ?_,
      Store.WellFormed.intern_extends session.store name, Nat.le_refl _,
      .inr (.inr ⟨_, rfl, known⟩)⟩
    rw [Routine.internAtom, bind_ok reading, reserved]
    rfl

theorem insertText (text : String) :
    Places session (insertText text) 0 fun t store => store.texts.get t = .ok text :=
  ⟨_, _, rfl, Store.WellFormed.enter_extends session.store text, Nat.le_refl _,
    session.store.texts.get_insert text⟩

/-- Building the pairs in front of an end. -/
theorem allocateList {handles : List Handle} {tail : Option Handle} {items : List Datum}
    {ending : Store → Handle → Prop}
    (stays : ∀ {store store' h}, store.Extends store' → ending store h → ending store' h)
    (shown : List.Forall₂ (Datum.ShownAt session.store) items handles)
    (ends : ending session.store (tail.getD session.store.heap.nil)) :
    Places session (allocateList handles tail) items.length fun h store =>
      Datum.ShownFrom store items (ending store) h := by
  induction shown with
  | nil => exact ⟨_, session, rfl, .refl _, Nat.le_refl _, ends⟩
  | cons first rest ih =>
    rw [allocateList_cons]
    apply ih.bind
    intro longer mid grown others
    apply (Places.allocate _).imp
    intro h store later stored
    refine ⟨_, _, stored, (first.mono grown).mono later, ?_⟩
    exact Datum.ShownFrom.mono later (fun last => stays later) others

end Places

mutual

/-- What placing a datum returns is what it denotes. -/
theorem embedded_places {session : Session} (begins : session.store.BeginsWithNil) {datum : Datum}
    (native : datum.Native) :
    Places session (Routine.embedded datum) datum.pairs fun h store => datum.ShownAt store h := by
  match datum with
  | .list items =>
    rw [Routine.embedded, Datum.pairs, Nat.add_comm]
    apply (embeddedAll_places begins native).bind
    intro handles mid grown shown
    have ends := grown.beginsWithNil begins
    exact Places.allocateList (fun later stored => later.heap.get stored) shown ends
  | .dotted items tail =>
    have enough : (Datum.dotted items tail).pairs ≤
        Datum.pairsAll items + (tail.pairs + items.length) := by
      rw [Datum.pairs]
      omega
    obtain ⟨items_native, tail_native⟩ := List.forall_mem_append.mp native
    rw [Routine.embedded]
    refine Places.fewer ((embeddedAll_places begins items_native).bind ?_) enough
    intro handles mid grown shown
    have begins := grown.beginsWithNil begins
    apply (embedded_places begins tail_native).bind
    intro last left later ends
    -- the items were placed before the tail, and the store has grown since
    have shown := shown.imp fun _ _ earlier => Datum.ShownAt.mono later earlier
    exact Places.allocateList (fun growth last => last.mono growth) shown ends
  | .atom name =>
    rw [Routine.embedded]
    refine Places.fewer ((Places.internAtom name).bind ?_) (Nat.zero_le (0 + 1))
    intro record mid _ named
    exact (Places.allocate record).imp fun h store later stored =>
      ⟨record, stored, named.mono later⟩
  | .integer _ | .boolean _ | .character _ =>
    rw [Routine.embedded]
    exact (Places.allocate _).fewer (Nat.zero_le 1)
  | .string text =>
    rw [Routine.embedded]
    refine Places.fewer ((Places.insertText text).bind ?_) (Nat.zero_le (0 + 1))
    intro t mid _ known
    exact (Places.allocate _).imp fun h store later stored => ⟨t, stored, later.text known⟩
  | .foreign _ => cases native _ List.mem_cons_self

/-- Embedding data in order places each of them, and takes a place at least for each of their
pairs. -/
theorem embeddedAll_places {session : Session} (begins : session.store.BeginsWithNil)
    {items : List Datum} (native : Datum.AllNative items) :
    Places session (Routine.embeddedAll items) (Datum.pairsAll items) fun handles store =>
      List.Forall₂ (Datum.ShownAt store) items handles := by
  match items with
  | [] => exact .pure .nil
  | datum :: rest =>
    obtain ⟨first_native, rest_native⟩ := List.forall_mem_append.mp native
    rw [Routine.embeddedAll, Datum.pairsAll]
    apply (embedded_places begins first_native).bind
    intro h mid grown first
    have begins := grown.beginsWithNil begins
    refine ((embeddedAll_places begins rest_native).bind fun handles left later others =>
      .pure (.cons (first.mono later) others))

end

end ScopedLisp
