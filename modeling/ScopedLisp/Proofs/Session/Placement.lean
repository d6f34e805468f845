import ScopedLisp.Proofs.Session.Embedding
import ScopedLisp.Proofs.Session.Renaming
import ScopedLisp.Proofs.Store.WellFormed

/-!
# Placing a datum in two sessions

A datum is placed in a session and in another one that holds more. The objects and texts that are
entered get places one after another in both. Symbols need not: where the other session knows a name
already, the name keeps the place that it has there. Which symbols correspond is told by their names
while the tables still grow. When the datum has been placed the tables are complete, and there is a
renaming under which the one session stands in the other.
-/

namespace ScopedLisp

open Routine

/-! ### Symbols told by their names -/

/-- The record does not depend on how symbols are renamed. -/
def Record.IgnoresSymbols (record : Record) : Prop :=
  ∀ φ φ' : Handle → Handle, (∀ h, h.table ≠ .symbols → φ h = φ' h) →
    record.rename φ = record.rename φ'

/-- The same record with its handles renamed, or symbols of one name. -/
inductive Record.Placed (φ : Handle → Handle) (symbols symbols' : Symbols) :
    Record → Record → Prop where
  | symbol {h h' : Handle} {name : String} (known : symbols.name h = .ok name)
    (known' : symbols'.name h' = .ok name) : Placed φ symbols symbols' (.symbol h) (.symbol h')
  | other {record : Record} (ignores : record.IgnoresSymbols) :
    Placed φ symbols symbols' record (record.rename φ)

namespace Renaming

variable {ρ : Renaming}

/-- The renaming with other places for the symbols. -/
def withSymbols (ρ : Renaming) {symbols : Nat → Nat} (injective : Function.Injective symbols) :
    Renaming where
  place
    | .symbols => symbols
    | table => ρ.place table
  injective table := by
    cases table with
    | symbols => exact injective
    | objects | texts | scopes => exact ρ.injective _
  nil := ρ.nil

/-- Placing symbols elsewhere does not move other handles. -/
theorem withSymbols_handle {symbols : Nat → Nat} (injective : Function.Injective symbols)
    {h : Handle} (other : h.table ≠ .symbols) :
    (ρ.withSymbols injective).handle h = ρ.handle h := by
  obtain ⟨table, index, owner⟩ := h
  cases table with
  | symbols => exact absurd rfl other
  | objects | texts | scopes => rfl

/-- What the one store holds stands in the other one, with symbols told by their names. -/
structure StorePlaced (ρ : Renaming) (store store' : Store) : Prop where
  heapOwner : store'.heap.owner = store.heap.owner
  records : Carries (ρ.place .objects)
    (Record.Placed ρ.handle store.symbols store'.symbols) store.heap.records.toList
    store'.heap.records.toList
  symbolsOwner : store'.symbols.owner = store.symbols.owner
  names : store.symbols.names ⊆ store'.symbols.names
  nodup : store.symbols.names.Nodup
  nodup' : store'.symbols.names.Nodup
  textsOwner : store'.texts.owner = store.texts.owner
  contents : Carries (ρ.place .texts) Eq store.texts.contents.toList store'.texts.contents.toList

/-- What the one session holds stands in the other one, with symbols told by their names. The frames
stand there wherever the symbols come to stand. -/
structure SessionPlaced (ρ : Renaming) (session session' : Session) : Prop where
  store : ρ.StorePlaced session.store session'.store
  scopes : ∀ {symbols : Nat → Nat} (injective : Function.Injective symbols),
    (ρ.withSymbols injective).ScopesCarried session.scopes session'.scopes
  vocabulary : session'.vocabulary = session.vocabulary
  stepLimit : session'.stepLimit = session.stepLimit
  steps : session'.steps = session.steps

/-- An object and the object that it is renamed to. -/
def ObjectRenamed (ρ : Renaming) (h h' : Handle) : Prop := h.table = .objects ∧ h' = ρ.handle h

/-- The two routines end in the same way, and the one session stands in the other still. -/
abbrev Places (ρ : Renaming) {α β : Type} (rel : α → β → Prop) (routine : Routine α)
    (routine' : Routine β) : Prop :=
  Tracks ρ.SessionPlaced Eq rel routine routine'

namespace StorePlaced

variable {store store' : Store}

/-- Records inserted in both stores have corresponding places. -/
theorem insert (placed : ρ.StorePlaced store store') {record record' : Record}
    (same : record.Placed ρ.handle store.symbols store'.symbols record') :
    ρ.StorePlaced { store with heap := (store.heap.insert record).1 }
        { store' with heap := (store'.heap.insert record').1 } ∧
      ρ.ObjectRenamed (store.heap.insert record).2 (store'.heap.insert record').2 := by
  refine ⟨{ placed with records := ?_ }, rfl, ?_⟩
  · simp only [Heap.insert, Array.toList_push]
    exact placed.records.concat same
  · have last := placed.records.place_length
    simp only [Array.length_toList] at last
    simp only [Heap.insert, Heap.handleAt, handle_natIndex, Heap.size, placed.heapOwner, last]

/-- A name interned in both stores keeps what is placed there. -/
theorem intern (placed : ρ.StorePlaced store store') (name : String) :
    ρ.StorePlaced { store with symbols := (store.symbols.intern name).1 }
      { store' with symbols := (store'.symbols.intern name).1 } := by
  have grown := Store.WellFormed.intern_extends store name
  have grown' := Store.WellFormed.intern_extends store' name
  refine { placed with records := ?_, symbolsOwner := ?_, names := ?_, nodup := ?_, nodup' := ?_ }
  · refine placed.records.mono fun record record' same => ?_
    cases same with
    | symbol known known' => exact .symbol (grown.symbolName known) (grown'.symbolName known')
    | other ignores => exact .other ignores
  · exact grown'.symbolsOwner.trans (placed.symbolsOwner.trans grown.symbolsOwner.symm)
  · intro other known
    rw [Symbols.mem_intern] at known ⊢
    exact known.imp_left (@placed.names other)
  · exact Symbols.nodup_intern placed.nodup name
  · exact Symbols.nodup_intern placed.nodup' name

theorem enter (placed : ρ.StorePlaced store store') (text : String) :
    ρ.StorePlaced { store with texts := (store.texts.insert text).1 }
        { store' with texts := (store'.texts.insert text).1 } ∧
      (store'.texts.insert text).2 = ρ.handle (store.texts.insert text).2 := by
  refine ⟨{ placed with contents := ?_ }, ?_⟩
  · simp only [Texts.insert, Array.toList_push]
    exact placed.contents.concat rfl
  · have last := placed.contents.place_length
    simp only [Array.length_toList] at last
    simp only [Texts.insert, Texts.handleAt, handle_natIndex, Texts.size, placed.textsOwner, last]

end StorePlaced

theorem SessionPlaced.withStore {session session' : Session}
    (placed : ρ.SessionPlaced session session') {store store' : Store}
    (stored : ρ.StorePlaced store store') :
    ρ.SessionPlaced { session with store } { session' with store := store' } :=
  ⟨stored, placed.scopes, placed.vocabulary, placed.stepLimit, placed.steps⟩

namespace Places

/-- Records without symbols are stored alike in both sessions. -/
theorem allocate {record : Record} (ignores : record.IgnoresSymbols) :
    ρ.Places ρ.ObjectRenamed (allocate record) (Routine.allocate (record.rename ρ.handle)) := by
  intro session session' placed
  obtain ⟨stored, renamed⟩ := placed.store.insert (.other ignores)
  exact .ok renamed (placed.withStore stored)

theorem allocateList {items items' : List Handle} {tail tail' : Option Handle}
    (same : List.Forall₂ ρ.ObjectRenamed items items')
    (ending : Option.Rel ρ.ObjectRenamed tail tail') :
    ρ.Places ρ.ObjectRenamed (allocateList items tail) (Routine.allocateList items' tail') := by
  induction same with
  | nil =>
    intro session session' placed
    refine .ok ?_ placed
    cases ending with
    | some renamed => exact renamed
    | none =>
      refine ⟨rfl, ?_⟩
      simp only [Option.getD_none, Heap.nil, Heap.handleAt, handle_natIndex, ρ.nil,
        placed.store.heapOwner]
  | @cons item _ rest _ renamed _ ih =>
    obtain ⟨object, rfl⟩ := renamed
    rw [allocateList_cons, allocateList_cons]
    apply Tracks.bind ih
    rintro longer _ ⟨object', rfl⟩
    apply @allocate ρ (.pair item longer)
    intro φ φ' alike
    simp only [Record.rename]
    rw [alike item (by rw [object]; decide), alike longer (by rw [object']; decide)]

/-- A name is placed as what it is reserved for or as the symbol of the name. -/
theorem atom (name : String) :
    ρ.Places ρ.ObjectRenamed (embedded (.atom name)) (embedded (.atom name)) := by
  intro session session' placed
  have reading (session : Session) : inspect (fun _ words => .ok (words.classify name)) session =
      .ok (session.vocabulary.classify name) session := inspect_ok rfl
  rw [embedded, internAtom, bind_assoc, bind_ok (reading session), bind_ok (reading session'),
    placed.vocabulary]
  cases classified : session.vocabulary.classify name with
  | some record =>
    have ignores : record.IgnoresSymbols ∧ record.rename ρ.handle = record := by
      rcases Vocabulary.classify_eq classified with rfl | rfl <;> exact ⟨fun _ _ _ => rfl, rfl⟩
    have placing := allocate ignores.1 session session' placed
    rw [ignores.2] at placing
    exact placing
  | none =>
    obtain ⟨stored, renamed⟩ := (placed.store.intern name).insert
      (.symbol (session.store.symbols.name_intern name) (session'.store.symbols.name_intern name))
    exact .ok renamed (placed.withStore stored)

theorem string (text : String) :
    ρ.Places ρ.ObjectRenamed (embedded (.string text)) (embedded (.string text)) := by
  intro session session' placed
  obtain ⟨entered, named⟩ := placed.store.enter text
  have ignores : (Record.string (session.store.texts.insert text).2).IgnoresSymbols := by
    intro φ φ' alike
    exact congrArg Record.string (alike _ nofun)
  obtain ⟨stored, renamed⟩ := entered.insert (.other ignores)
  have shape : (Record.string (session.store.texts.insert text).2).rename ρ.handle =
      .string (session'.store.texts.insert text).2 := congrArg Record.string named.symm
  rw [shape] at stored renamed
  exact .ok renamed (placed.withStore stored)

mutual

/-- A datum is placed in both sessions alike. -/
theorem embedded (datum : Datum) :
    ρ.Places ρ.ObjectRenamed (embedded datum) (Routine.embedded datum) := by
  match datum with
  | .list items =>
    rw [Routine.embedded]
    exact Tracks.bind (embeddedAll items) fun _ _ same => allocateList same .none
  | .dotted items tail =>
    rw [Routine.embedded]
    apply Tracks.bind (embeddedAll items)
    intro _ _ same
    exact Tracks.bind (embedded tail) fun _ _ renamed => allocateList same (.some renamed)
  | .atom name => exact atom name
  | .string text => exact string text
  | .integer _ | .boolean _ | .character _ =>
    rw [Routine.embedded]
    exact allocate fun _ _ _ => rfl
  | .foreign value =>
    rw [Routine.embedded]
    cases value.display with
    | ok shown => exact Tracks.fail rfl
    | error failure => exact Tracks.fail rfl

theorem embeddedAll (items : List Datum) :
    ρ.Places (List.Forall₂ ρ.ObjectRenamed) (embeddedAll items) (Routine.embeddedAll items) := by
  match items with
  | [] =>
    rw [Routine.embeddedAll]
    exact Tracks.pure .nil
  | datum :: rest =>
    rw [Routine.embeddedAll]
    apply Tracks.bind (embedded datum)
    intro _ _ renamed
    apply Tracks.bind (embeddedAll rest)
    intro _ _ same
    exact Tracks.pure (.cons renamed same)

end

end Places

/-! ### The renaming of the symbols -/

/-- Where the names of the one table stand in the other one. Places behind the names lie behind the
other names. -/
def symbolPlace (names names' : List String) (i : Nat) : Nat :=
  match names[i]? with
  | some name => names'.idxOf name
  | none => names'.length + (i - names.length)

/-- Different names stand in different places of the larger table. -/
theorem symbolPlace_injective {names names' : List String} (nodup : names.Nodup)
    (known : names ⊆ names') : Function.Injective (symbolPlace names names') := by
  intro i j same
  unfold symbolPlace at same
  have inside {i : Nat} {name : String} (entry : names[i]? = some name) :
      names'.idxOf name < names'.length :=
    List.idxOf_lt_length_iff.mpr (known (List.mem_of_getElem? entry))
  cases first : names[i]? with
  | some name =>
    cases second : names[j]? with
    | some other =>
      rw [first, second] at same
      have member := known (List.mem_of_getElem? first)
      have names_same := (List.idxOf_inj member).mp same
      rw [names_same, ← second] at first
      have below := (List.getElem?_eq_some_iff.mp second).1
      exact ((List.getElem?_inj below nodup).mp first.symm).symm
    | none =>
      rw [first, second] at same
      have := inside first
      dsimp only at same
      omega
  | none =>
    cases second : names[j]? with
    | some other =>
      rw [first, second] at same
      have := inside second
      dsimp only at same
      omega
    | none =>
      rw [first, second] at same
      rw [List.getElem?_eq_none_iff] at first second
      dsimp only at same
      omega

/-- Each name of the smaller table stands where the larger one has it. -/
theorem symbolPlace_carries {names names' : List String} (known : names ⊆ names') :
    Carries (symbolPlace names names') Eq names names' := by
  constructor
  · intro i name entry
    refine ⟨name, ?_, rfl⟩
    have member := known (List.mem_of_getElem? entry)
    simp only [symbolPlace, entry]
    exact List.getElem?_idxOf member
  · intro i
    have outside : names[names.length + i]? = none := List.getElem?_eq_none (Nat.le_add_right _ _)
    simp only [symbolPlace, outside]
    omega

/-- A store stands in the other one in which it has been placed. -/
theorem StorePlaced.carried {store store' : Store} (placed : ρ.StorePlaced store store') :
    (ρ.withSymbols (symbolPlace_injective placed.nodup placed.names)).StoreCarried store
      store' := by
  have injective := symbolPlace_injective placed.nodup placed.names
  have names := symbolPlace_carries placed.names
  refine ⟨⟨placed.heapOwner, placed.records.mono fun record record' same => ?_⟩,
    placed.symbolsOwner, names, placed.textsOwner, placed.contents⟩
  cases same with
  | other ignores => exact ignores _ _ fun h other => (withSymbols_handle injective other).symm
  | @symbol h h' name known known' =>
    obtain ⟨i, rfl, entry⟩ := Symbols.name_eq_ok_iff.mp known
    obtain ⟨j, rfl, entry'⟩ := Symbols.name_eq_ok_iff.mp known'
    obtain ⟨_, moved, rfl⟩ := names.entry entry
    have below := (List.getElem?_eq_some_iff.mp entry').1
    have place := (List.getElem?_inj below placed.nodup').mp (entry'.trans moved.symm)
    simp only [Record.rename, Symbols.handleAt, handle_natIndex, place, placed.symbolsOwner]
    rfl

/-- A session stands in the other one in which it has been placed. -/
theorem SessionPlaced.carried {session session' : Session}
    (placed : ρ.SessionPlaced session session') :
    (ρ.withSymbols (symbolPlace_injective placed.store.nodup placed.store.names)).SessionCarried
      session session' :=
  ⟨placed.store.carried, placed.scopes _, placed.vocabulary, placed.stepLimit, placed.steps⟩

end Renaming

end ScopedLisp
