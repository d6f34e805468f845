import ScopedLisp.Proofs.Store.Renaming
import ScopedLisp.Proofs.Store.WellFormed

/-!
# Stores that have grown

When a store grows, what it holds keeps its place and what is added comes behind. Seen from the
larger store this is a renaming that moves none of the handles that were issued before, so an object
looks the same in both: printing gives the same text, or fails on the same integer.
-/

namespace ScopedLisp

/-! ### Entries behind others -/

/-- The place of an entry when `moved` others have been put behind the first `kept`. -/
def placeBehind (kept moved i : Nat) : Nat := if i < kept then i else i + moved

theorem placeBehind_injective (kept moved : Nat) : Function.Injective (placeBehind kept moved) := by
  intro i j same
  unfold placeBehind at same
  split at same <;> split at same <;> omega

/-- The places of entries that come behind all entries of both tables. -/
def behindAll {α : Type} (entries entries' : List α) : Nat → Nat :=
  placeBehind entries.length (entries'.length - entries.length)

namespace Renaming

/-- Entries that stay where they are, with others behind them. -/
theorem Carries.of_extends {α : Type} {rel : α → α → Prop} {entries entries' : List α}
    (extends_entries : ∀ {i : Nat} {entry : α}, entries[i]? = some entry →
      entries'[i]? = some entry)
    (same : ∀ entry ∈ entries, rel entry entry) :
    Carries (behindAll entries entries') rel entries entries' := by
  have longer : entries.length ≤ entries'.length := by
    by_contra shorter
    have stored := extends_entries (List.getElem?_eq_getElem (Nat.lt_of_not_le shorter))
    have below := (List.getElem?_eq_some_iff.mp stored).1
    exact Nat.lt_irrefl _ below
  constructor
  · intro i entry stored
    have below := (List.getElem?_eq_some_iff.mp stored).1
    refine ⟨entry, ?_, same entry (List.mem_of_getElem? stored)⟩
    rw [behindAll, placeBehind, if_pos below]
    exact extends_entries stored
  · intro i
    rw [behindAll, placeBehind, if_neg (by omega)]
    omega

theorem handle_eq_self {ρ : Renaming} {h : Handle} {table : Table} {owner limit : Nat}
    (issued : h.IssuedBefore table owner limit) (fixed : ∀ i < limit, ρ.place table i = i) :
    ρ.handle h = h := by
  obtain ⟨i, below, rfl⟩ := issued
  rw [handle_natIndex, fixed i below]

/-- What the one store holds keeps its place in the other one, and what is added to both comes
behind what the other one holds. Scopes are not moved. -/
def extending (store store' : Store) (some_stored : 0 < store.heap.records.toList.length) :
    Renaming where
  place
    | .objects => behindAll store.heap.records.toList store'.heap.records.toList
    | .symbols => behindAll store.symbols.names store'.symbols.names
    | .texts => behindAll store.texts.contents.toList store'.texts.contents.toList
    | .scopes => id
  injective table := by
    cases table with
    | scopes => exact Function.injective_id
    | objects | symbols | texts => exact placeBehind_injective _ _
  nil := if_pos some_stored

section Extending

variable {store store' : Store} {some_stored : 0 < store.heap.records.toList.length} {h : Handle}

theorem extending_object {limit : Nat} (inside : limit ≤ store.heap.size)
    (issued : h.IssuedBefore .objects store.heap.owner limit) :
    (extending store store' some_stored).handle h = h :=
  handle_eq_self issued fun _ below => if_pos (Nat.lt_of_lt_of_le below inside)

theorem extending_scope {scope : Handle} (kind : scope.table = .scopes) :
    (extending store store' some_stored).handle scope = scope := by
  obtain ⟨table, index, owner⟩ := scope
  subst kind
  cases index <;> rfl

/-- In a well-formed store the records are the same with their handles renamed. -/
theorem extending_record {record : Record} {i : Nat} (inside : i ≤ store.heap.size)
    (refers : record.RefersBelow store i)
    (captured : ∀ params body scope, record = .procedure params body scope →
      scope.table = .scopes) :
    record.rename (extending store store' some_stored).handle = record := by
  cases record with
  | pair car cdr =>
    rw [Record.rename, extending_object inside refers.1, extending_object inside refers.2]
  | procedure params body scope =>
    rw [Record.rename, extending_object inside refers.1, extending_object inside refers.2.1,
      extending_scope (captured params body scope rfl)]
  | symbol name =>
    have fixed : (extending store store' some_stored).handle name = name :=
      handle_eq_self refers fun _ below => if_pos below
    rw [Record.rename, fixed]
  | string text =>
    have fixed : (extending store store' some_stored).handle text = text :=
      handle_eq_self refers fun _ below => if_pos below
    rw [Record.rename, fixed]
  | _ => rfl

/-- A well-formed store stands in every larger one. -/
theorem extending_carried (wf : store.WellFormed) (grown : store.Extends store')
    (captured : ∀ {h params body scope}, store.heap.get h = .ok (.procedure params body scope) →
      scope.table = .scopes) :
    (extending store store' some_stored).StoreCarried store store' := by
  refine ⟨⟨grown.heap.owner, ?_⟩, grown.symbolsOwner, ?_, grown.textsOwner, ?_⟩
  · refine Carries.of_extends (fun stored => ?_) fun record member => ?_
    · rw [Array.getElem?_toList] at stored ⊢
      exact grown.heap.records stored
    · obtain ⟨i, stored⟩ := List.getElem?_of_mem member
      rw [Array.getElem?_toList] at stored
      have inside := (Array.getElem?_eq_some_iff.mp stored).1
      refine (extending_record (Nat.le_of_lt inside) (wf.refers stored) ?_).symm
      rintro params body scope rfl
      exact captured (Heap.get_handleAt_iff.mpr stored)
  · exact Carries.of_extends (fun stored => getElem?_of_prefix grown.names stored) fun _ _ => rfl
  · exact Carries.of_extends (fun stored => getElem?_of_prefix grown.contents stored) fun _ _ => rfl

end Extending

end Renaming

/-- An object that a well-formed store holds is printed in the same way however the store grows. -/
theorem Store.WellFormed.render_of_extends {store store' : Store} {h : Handle}
    (wf : store.WellFormed) (grown : store.Extends store') (held : store.Holds h)
    (captured : ∀ {h params body scope}, store.heap.get h = .ok (.procedure params body scope) →
      scope.table = .scopes) :
    store'.render h = store.render h := by
  have some_stored : 0 < store.heap.records.toList.length := by
    obtain ⟨i, below, -⟩ := held
    exact Nat.lt_of_le_of_lt (Nat.zero_le i) below
  have carried : (Renaming.extending store store' some_stored).StoreCarried store store' :=
    Renaming.extending_carried wf grown captured
  have shown : Agrees Eq Eq _ _ := carried.render (fun _ => rfl) h
  rw [Renaming.extending_object (Nat.le_refl _) held] at shown
  have safely := wf.render_failsSafely held
  generalize store.render h = result, store'.render h = result' at *
  cases shown with
  | ok same => rw [same]
  | error same => rw [same]
  | excused fault _ => exact absurd (fault.symm.trans (safely _ rfl)) Bool.false_ne_true

end ScopedLisp
