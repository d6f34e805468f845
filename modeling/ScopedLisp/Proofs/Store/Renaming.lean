import Mathlib.Data.Fintype.Card
import ScopedLisp.Proofs.Store.Writing

/-!
# Renamed handles

What a store holds may stand at other places in another store, among entries that have nothing to
do with it. A renaming says where. Whatever is read off the one store at a handle is then read off
the other one at the renamed handle, with the handles in it renamed. The walks of the heap are the
one exception: they may take more steps in the larger heap, so where the one is given up the other
need not be.
-/

namespace ScopedLisp

theorem Listing.all_cons {α : Type} (item : α) (listing : Listing α) :
    (listing.cons item).all = listing.all.map (item :: ·) := by
  obtain ⟨items, failure⟩ := listing
  cases failure <;> rfl

/-! ### Renamings -/

/-- Where the entries of each table stand in another table of its kind. The empty list keeps its
place. -/
structure Renaming where
  place : Table → Nat → Nat
  injective : ∀ table, Function.Injective (place table)
  nil : place .objects 0 = 0

/-- The handle of the place where the entry stands. -/
def Renaming.handle (ρ : Renaming) (h : Handle) : Handle :=
  match h.index with
  | .ofNat i => { h with index := ρ.place h.table i }
  | .negSucc _ => h

/-- What an object is printed as, with the handles of the other objects that it needs renamed. -/
def Layout.rename (φ : Handle → Handle) : Layout → Layout
  | .plain text => .plain text
  | .list first rest tail => .list (φ first) (rest.map φ) (tail.map φ)
  | .procedure params => .procedure (φ params)

/-- The record with its handles renamed. -/
def Record.rename (φ : Handle → Handle) : Record → Record
  | .pair car cdr => .pair (φ car) (φ cdr)
  | .procedure params body scope => .procedure (φ params) (φ body) (φ scope)
  | .symbol name => .symbol (φ name)
  | .string text => .string (φ text)
  | record => record

/-- The failures are the same but for the handles in them, which are renamed, and for the texts
about objects and symbols, which are related. -/
inductive Failure.Renamed (φ : Handle → Handle) (T : String → String → Prop) :
    Failure → Failure → Prop where
  | same (failure : Failure) : Renamed φ T failure failure
  | unboundVariable {name name' : String} (alike : T name name') :
    Renamed φ T (.unboundVariable name) (.unboundVariable name')
  | notCallable {shown shown' : String} (alike : T shown shown') :
    Renamed φ T (.notCallable shown) (.notCallable shown')
  | typeMismatch {expected actual actual' : String} (alike : T actual actual') :
    Renamed φ T (.typeMismatch expected actual) (.typeMismatch expected actual')
  | duplicateParameter {form name name' : String} (alike : T name name') :
    Renamed φ T (.unsupportedForm form (.duplicateParameter name))
      (.unsupportedForm form (.duplicateParameter name'))
  | improperList (tail : Handle) : Renamed φ T (.improperList tail) (.improperList (φ tail))

/-- Related values or related failures. Nothing is said where the first result is a fault or a walk
that was given up. -/
inductive Agrees (F : Failure → Failure → Prop) {α β : Type} (rel : α → β → Prop) :
    Except Failure α → Except Failure β → Prop where
  | ok {value : α} {value' : β} (related : rel value value') : Agrees F rel (.ok value) (.ok value')
  | error {failure failure' : Failure} (related : F failure failure') :
    Agrees F rel (.error failure) (.error failure')
  | excused {failure : Failure} (fault : failure.isSafe = false) (result : Except Failure β) :
    Agrees F rel (.error failure) result

namespace Agrees

variable {F : Failure → Failure → Prop} {α β γ δ : Type} {rel : α → β → Prop}
  {rel' : γ → δ → Prop} {first : Except Failure α} {second : Except Failure β}

/-- Results that agree, used alike, agree. -/
theorem bind {next : α → Except Failure γ} {next' : β → Except Failure δ}
    (head : Agrees F rel first second)
    (tail : ∀ value value', rel value value' → Agrees F rel' (next value) (next' value')) :
    Agrees F rel' (first >>= next) (second >>= next') := by
  cases head with
  | ok related => exact tail _ _ related
  | error related => exact .error related
  | excused fault result => exact .excused fault _

theorem map {f : α → γ} {g : β → δ} (head : Agrees F rel first second)
    (each : ∀ value value', rel value value' → rel' (f value) (g value')) :
    Agrees F rel' (first.map f) (second.map g) := by
  cases head with
  | ok related => exact .ok (each _ _ related)
  | error related => exact .error related
  | excused fault result => exact .excused fault _

/-- Failures that are reported with something that was read. -/
theorem throw {cause : α → Failure} {cause' : β → Failure} (head : Agrees F rel first second)
    (each : ∀ value value', rel value value' → F (cause value) (cause' value')) :
    Agrees F rel' (first >>= fun value => MonadExcept.throw (cause value))
      (second >>= fun value => MonadExcept.throw (cause' value)) :=
  head.bind fun value value' related => .error (each value value' related)

end Agrees

namespace Renaming

variable {ρ : Renaming}

/-- Agreement up to the handles in failures. -/
abbrev AgreesUpTo (ρ : Renaming) {α β : Type} (rel : α → β → Prop) :
    Except Failure α → Except Failure β → Prop :=
  Agrees (Failure.Renamed ρ.handle Eq) rel

/-- Renamed handles are equal only if the handles are. -/
theorem handle_injective (ρ : Renaming) : Function.Injective ρ.handle := by
  rintro ⟨table, index, owner⟩ ⟨table', index', owner'⟩ same
  cases index <;> cases index' <;> simp only [handle, Handle.mk.injEq] at same
  · obtain ⟨rfl, places, rfl⟩ := same
    rw [ρ.injective table (Int.ofNat.inj places)]
  · obtain ⟨-, mixed, -⟩ := same
    cases mixed
  · obtain ⟨-, mixed, -⟩ := same
    cases mixed
  · obtain ⟨rfl, indices, rfl⟩ := same
    rw [indices]

theorem handle_natIndex (ρ : Renaming) (table : Table) (i owner : Nat) :
    ρ.handle ⟨table, i, owner⟩ = ⟨table, ρ.place table i, owner⟩ :=
  rfl

/-! ### Tables -/

/-- The entries of the one table have related entries in the other one at their places, and new
entries get places one after another in both. -/
structure Carries (place : Nat → Nat) {α β : Type} (rel : α → β → Prop) (entries : List α)
    (entries' : List β) : Prop where
  entry : ∀ {i : Nat} {entry : α}, entries[i]? = some entry →
    ∃ entry', entries'[place i]? = some entry' ∧ rel entry entry'
  next : ∀ i, place (entries.length + i) = entries'.length + i

namespace Carries

variable {place : Nat → Nat} {α β : Type} {rel : α → β → Prop} {entries : List α}
  {entries' : List β}

/-- The place of an entry is inside the other table. -/
theorem place_lt (carries : Carries place rel entries entries') {i : Nat}
    (inside : i < entries.length) : place i < entries'.length := by
  obtain ⟨entry', stored, -⟩ := carries.entry (List.getElem?_eq_getElem inside)
  exact (List.getElem?_eq_some_iff.mp stored).1

theorem get (carries : Carries place rel entries entries') {i : Nat}
    (inside : i < entries.length) :
    rel (entries.get ⟨i, inside⟩) (entries'.get ⟨place i, carries.place_lt inside⟩) := by
  obtain ⟨entry', stored, related⟩ := carries.entry (List.getElem?_eq_getElem inside)
  obtain ⟨below, rfl⟩ := List.getElem?_eq_some_iff.mp stored
  exact related

/-- Entries carried under a relation are carried under a weaker one. -/
theorem mono {rel' : α → β → Prop} (carries : Carries place rel entries entries')
    (weaker : ∀ entry entry', rel entry entry' → rel' entry entry') :
    Carries place rel' entries entries' := by
  refine ⟨fun stored => ?_, carries.next⟩
  obtain ⟨entry', stored', related⟩ := carries.entry stored
  exact ⟨entry', stored', weaker _ _ related⟩

/-- A table that carries another is at least as long, because no two entries share a place. -/
theorem length_le (carries : Carries place rel entries entries')
    (injective : Function.Injective place) : entries.length ≤ entries'.length := by
  let move (i : Fin entries.length) : Fin entries'.length := ⟨place i, carries.place_lt i.isLt⟩
  have distinct : Function.Injective move := by
    intro i j same
    exact Fin.ext (injective (congrArg Fin.val same))
  simpa only [Fintype.card_fin] using Fintype.card_le_of_injective move distinct

theorem place_length (carries : Carries place rel entries entries') :
    place entries.length = entries'.length :=
  carries.next 0

/-- Related entries added to both tables have corresponding places. -/
theorem concat (carries : Carries place rel entries entries') {entry : α} {entry' : β}
    (related : rel entry entry') :
    Carries place rel (entries ++ [entry]) (entries' ++ [entry']) := by
  constructor
  · intro i other stored
    rcases Nat.lt_or_ge i entries.length with inside | beyond
    · rw [List.getElem?_append_left inside] at stored
      rw [List.getElem?_append_left (carries.place_lt inside)]
      exact carries.entry stored
    · have below := (List.getElem?_eq_some_iff.mp stored).1
      rw [List.length_append, List.length_singleton] at below
      obtain rfl : i = entries.length := by omega
      rw [List.getElem?_concat_length] at stored
      cases stored
      exact ⟨entry', by rw [carries.place_length, List.getElem?_concat_length], related⟩
  · intro i
    have place_eq := carries.next (1 + i)
    simp only [List.length_append, List.length_singleton]
    rw [Nat.add_assoc, place_eq, Nat.add_assoc]

end Carries

/-- A table that holds the entry recognises the renamed handle. -/
theorem position?_handle {table : Table} {α β : Type} {rel : α → β → Prop} {entries : List α}
    {entries' : List β} (carries : Carries (ρ.place table) rel entries entries') {owner : Nat}
    {h : Handle} {i : Fin entries.length}
    (found : h.position? table owner entries.length = some i) :
    (ρ.handle h).position? table owner entries'.length =
      some ⟨ρ.place table i, carries.place_lt i.isLt⟩ := by
  rw [Handle.position?_eq_some_iff] at found
  rw [found, handle_natIndex, Handle.position?_eq_some_iff]

/-! ### Stores -/

/-- The records of the one heap stand in the other one. -/
structure HeapCarried (ρ : Renaming) (heap heap' : Heap) : Prop where
  owner : heap'.owner = heap.owner
  records : Carries (ρ.place .objects) (fun record record' => record' = record.rename ρ.handle)
    heap.records.toList heap'.records.toList

/-- What the one store holds stands in the other one. -/
structure StoreCarried (ρ : Renaming) (store store' : Store) : Prop where
  heap : ρ.HeapCarried store.heap store'.heap
  symbolsOwner : store'.symbols.owner = store.symbols.owner
  names : Carries (ρ.place .symbols) Eq store.symbols.names store'.symbols.names
  textsOwner : store'.texts.owner = store.texts.owner
  contents : Carries (ρ.place .texts) Eq store.texts.contents.toList store'.texts.contents.toList

namespace HeapCarried

variable {heap heap' : Heap} {F : Failure → Failure → Prop} {n n' : Nat}

/-- A heap that carries another holds at least as many objects. -/
theorem size_le (carried : ρ.HeapCarried heap heap') : heap.size ≤ heap'.size :=
  carried.records.length_le (ρ.injective .objects)

theorem nil (carried : ρ.HeapCarried heap heap') : heap'.nil = ρ.handle heap.nil := by
  simp only [Heap.nil, Heap.handleAt, handle_natIndex, ρ.nil, carried.owner]

/-- A renamed handle stands for the renamed record. -/
theorem get (carried : ρ.HeapCarried heap heap') (h : Handle) :
    Agrees F (fun record record' => record' = record.rename ρ.handle) (heap.get h)
      (heap'.get (ρ.handle h)) := by
  unfold Heap.get
  rw [carried.owner]
  cases found : h.position? .objects heap.owner heap.records.size with
  | none => exact .excused rfl _
  | some i =>
    have recognised : (ρ.handle h).position? .objects heap.owner heap'.records.size =
        some ⟨ρ.place .objects i, carried.records.place_lt i.isLt⟩ :=
      position?_handle carried.records found
    rw [recognised]
    exact .ok (carried.records.get i.isLt)

/-- Inserting a record on one side and the renamed record on the other keeps the heaps in step and
gives corresponding handles. -/
theorem insert (carried : ρ.HeapCarried heap heap') (record : Record) :
    ρ.HeapCarried (heap.insert record).1 (heap'.insert (record.rename ρ.handle)).1 ∧
      (heap'.insert (record.rename ρ.handle)).2 = ρ.handle (heap.insert record).2 := by
  refine ⟨⟨carried.owner, ?_⟩, ?_⟩
  · simp only [Heap.insert, Array.toList_push]
    exact carried.records.concat rfl
  · have placed := carried.records.place_length
    simp only [Array.length_toList] at placed
    simp only [Heap.insert, Heap.handleAt, handle_natIndex, Heap.size, carried.owner, placed]

/-- Walks from corresponding objects list corresponding elements. A walk that runs out of rounds on
the left is excused. -/
theorem walk (carried : ρ.HeapCarried heap heap') (rounds : n ≤ n') (h : Handle) :
    ρ.AgreesUpTo (fun items items' => items' = items.map ρ.handle)
      (heap.walk (.failed .endlessWalk) n h).all
      (heap'.walk (.failed .endlessWalk) n' (ρ.handle h)).all := by
  induction n generalizing n' h with
  | zero => exact .excused rfl _
  | succ n ih =>
    obtain ⟨n', rfl⟩ := Nat.exists_eq_add_of_le' (Nat.one_le_of_lt rounds)
    have found : ρ.AgreesUpTo _ _ _ := carried.get h
    unfold Heap.walk
    generalize heap.get h = result, heap'.get (ρ.handle h) = result' at found
    cases found with
    | excused fault result => exact .excused fault _
    | error related => exact .error related
    | @ok record _ related =>
      subst related
      cases record with
      | pair car cdr =>
        simp only [Record.rename, Listing.all_cons]
        refine (ih (Nat.le_of_succ_le_succ rounds) cdr).map ?_
        rintro items _ rfl
        rfl
      | nil => exact .ok rfl
      | _ => exact .error (.improperList h)

/-- Corresponding lists have corresponding elements. -/
theorem elements (carried : ρ.HeapCarried heap heap') (h : Handle) :
    ρ.AgreesUpTo (fun items items' => items' = items.map ρ.handle) (heap.elements h)
      (heap'.elements (ρ.handle h)) :=
  carried.walk (Nat.succ_le_succ carried.size_le) h

/-- The pairs of corresponding objects end at corresponding records. -/
theorem spine (carried : ρ.HeapCarried heap heap') (steps : n ≤ n') (h : Handle) :
    Agrees F (fun (cars, last, record) found =>
        found = (cars.map ρ.handle, ρ.handle last, record.rename ρ.handle))
      (heap.spine n h) (heap'.spine n' (ρ.handle h)) := by
  induction n generalizing n' h with
  | zero => exact .excused rfl _
  | succ n ih =>
    obtain ⟨n', rfl⟩ := Nat.exists_eq_add_of_le' (Nat.one_le_of_lt steps)
    unfold Heap.spine
    apply (carried.get h).bind
    rintro record _ rfl
    cases record with
    | pair car cdr =>
      apply (ih (Nat.le_of_succ_le_succ steps) cdr).bind
      rintro ⟨cars, last, record⟩ _ rfl
      exact .ok rfl
    | _ => exact .ok rfl

/-- Corresponding parameter lists take the same numbers of arguments. -/
theorem parameterShape (carried : ρ.HeapCarried heap heap') (params : Handle) :
    Agrees F Eq (heap.parameterShape params) (heap'.parameterShape (ρ.handle params)) := by
  apply (carried.spine (Nat.succ_le_succ carried.size_le) params).bind
  rintro ⟨cars, last, record⟩ _ rfl
  apply Agrees.ok
  rw [List.length_map]
  cases record <;> rfl

end HeapCarried

/-- Pieces of the same text, where an object may be descended at least as deep. -/
inductive PieceCarried (ρ : Renaming) : Piece → Piece → Prop where
  | plain (text : String) : PieceCarried ρ (.plain text) (.plain text)
  | object {room room' : Nat} (roomy : room ≤ room') (h : Handle) :
    PieceCarried ρ (.object room h) (.object room' (ρ.handle h))

/-- The pieces of a renamed layout are the renamed pieces. -/
theorem pieces_carried (layout : Layout) {room room' : Nat} (roomy : room ≤ room') :
    List.Forall₂ ρ.PieceCarried (layout.pieces room) ((layout.rename ρ.handle).pieces room') := by
  have item (h : Handle) : ρ.PieceCarried (.object room h) (.object room' (ρ.handle h)) :=
    .object roomy h
  cases layout with
  | plain text => exact .cons (.plain text) .nil
  | procedure params => exact .cons (.plain _) (.cons (item params) (.cons (.plain _) .nil))
  | list first rest tail =>
    refine List.rel_append (List.rel_append (.cons (.plain _) (.cons (item first) ?_)) ?_)
      (.cons (.plain _) .nil)
    · induction rest with
      | nil => exact .nil
      | cons other others ih => exact .cons (.plain _) (.cons (item other) ih)
    · cases tail with
      | none => exact .nil
      | some last => exact .cons (.plain _) (.cons (item last) .nil)

namespace StoreCarried

variable {store store' : Store} {F : Failure → Failure → Prop} {n n' : Nat}

/-- Corresponding symbols have the same name. -/
theorem symbolName (carried : ρ.StoreCarried store store') (h : Handle) :
    Agrees F Eq (store.symbols.name h) (store'.symbols.name (ρ.handle h)) := by
  unfold Symbols.name
  rw [carried.symbolsOwner]
  cases found : h.position? .symbols store.symbols.owner store.symbols.names.length with
  | none => exact .excused rfl _
  | some i =>
    rw [position?_handle carried.names found]
    exact .ok (carried.names.get i.isLt)

/-- Corresponding texts are the same text. -/
theorem text (carried : ρ.StoreCarried store store') (h : Handle) :
    Agrees F Eq (store.texts.get h) (store'.texts.get (ρ.handle h)) := by
  unfold Texts.get
  rw [carried.textsOwner]
  cases found : h.position? .texts store.texts.owner store.texts.contents.size with
  | none => exact .excused rfl _
  | some i =>
    have recognised : (ρ.handle h).position? .texts store.texts.owner store'.texts.contents.size =
        some ⟨ρ.place .texts i, carried.contents.place_lt i.isLt⟩ :=
      position?_handle carried.contents found
    rw [recognised]
    exact .ok (carried.contents.get i.isLt)

/-- Corresponding objects are laid out alike, up to the handles inside. -/
theorem layout (carried : ρ.StoreCarried store store') (same : ∀ failure, F failure failure)
    (h : Handle) :
    Agrees F (fun layout layout' => layout' = layout.rename ρ.handle) (store.layout h)
      (store'.layout (ρ.handle h)) := by
  apply (carried.heap.get h).bind
  rintro record _ rfl
  cases record with
  | pair car cdr =>
    apply (carried.heap.spine (Nat.succ_le_succ carried.heap.size_le) cdr).bind
    rintro ⟨cars, last, record⟩ _ rfl
    apply Agrees.ok
    cases record <;> rfl
  | symbol name =>
    apply (carried.symbolName name).bind
    rintro text _ rfl
    exact .ok rfl
  | string text =>
    apply (carried.text text).bind
    rintro content _ rfl
    exact .ok rfl
  | integer value | foreign value =>
    dsimp only [Record.rename]
    cases Record.digits value with
    | ok text => exact .ok rfl
    | error failure => exact .error (same failure)
  | nil | procedure _ _ _ | keyword _ | operator _ | boolean _ | character _ => exact .ok rfl

/-- Pieces that correspond are written as the same text. The induction follows the writer, whose
stack of pending pieces stands on both sides. -/
theorem writeFrom (carried : ρ.StoreCarried store store') (same : ∀ failure, F failure failure)
    {pending pending' : List Piece} (pieces : List.Forall₂ ρ.PieceCarried pending pending')
    (written : String) :
    Agrees F Eq (store.writeFrom pending written) (store'.writeFrom pending' written) := by
  fun_induction store.writeFrom pending written generalizing pending' with
  | case1 written =>
    cases pieces
    rw [Store.writeFrom]
    exact .ok rfl
  | case2 written text rest ih =>
    cases pieces with
    | cons first others =>
      cases first
      rw [Store.writeFrom]
      exact ih others
  | case3 written h rest => exact .excused rfl _
  | case4 written room h rest failure found =>
    cases pieces with
    | cons first others =>
      cases first with
      | @object _ room' roomy =>
        obtain ⟨room', rfl⟩ := Nat.exists_eq_add_of_le' (Nat.one_le_of_lt roomy)
        have shown := carried.layout same h
        rw [found] at shown
        rw [Store.writeFrom_eq]
        generalize store'.layout (ρ.handle h) = result at shown
        cases shown with
        | error related => exact .error related
        | excused fault result => exact .excused fault _
  | case5 written room h rest layout found ih =>
    cases pieces with
    | cons first others =>
      cases first with
      | @object _ room' roomy =>
        obtain ⟨room', rfl⟩ := Nat.exists_eq_add_of_le' (Nat.one_le_of_lt roomy)
        have shown := carried.layout same h
        rw [found] at shown
        rw [Store.writeFrom_eq]
        generalize store'.layout (ρ.handle h) = result at shown
        cases shown with
        | ok related =>
          subst related
          exact ih (List.rel_append (pieces_carried layout (Nat.le_of_succ_le_succ roomy)) others)

/-- Corresponding objects are rendered as the same text. -/
theorem render (carried : ρ.StoreCarried store store') (same : ∀ failure, F failure failure)
    (h : Handle) : Agrees F Eq (store.render h) (store'.render (ρ.handle h)) := by
  have roomy := Nat.succ_le_succ carried.heap.size_le
  exact carried.writeFrom same (.cons (.object roomy h) .nil) ""

/-- Corresponding objects are described by the same text. -/
theorem describe (carried : ρ.StoreCarried store store') (same : ∀ failure, F failure failure)
    (h : Handle) : Agrees F Eq (store.describe h) (store'.describe (ρ.handle h)) := by
  apply (carried.heap.get h).bind
  rintro record _ rfl
  apply (carried.render same h).bind
  rintro text _ rfl
  apply Agrees.ok
  cases record <;> rfl

/-- A parameter is seen to repeat on both sides or on neither. -/
theorem requireNew (carried : ρ.StoreCarried store store') (form : String) (seen : List Handle)
    (symbol : Handle) :
    ρ.AgreesUpTo Eq (store.requireNew form seen symbol)
      (store'.requireNew form (seen.map ρ.handle) (ρ.handle symbol)) := by
  have same : (seen.map ρ.handle).contains (ρ.handle symbol) = seen.contains symbol := by
    simp only [List.contains_eq_mem, List.mem_map_of_injective ρ.handle_injective]
  unfold Store.requireNew
  rw [same]
  split
  · apply (carried.symbolName symbol).bind
    rintro name _ rfl
    exact .error (.same _)
  · exact .ok rfl

/-- The check of a parameter list, begun at corresponding pairs, comes to the same result. -/
theorem checkParametersFrom (carried : ρ.StoreCarried store store') (form : String)
    (steps : n ≤ n') (seen : List Handle) (params : Handle) :
    ρ.AgreesUpTo Eq (store.checkParametersFrom form n seen params)
      (store'.checkParametersFrom form n' (seen.map ρ.handle) (ρ.handle params)) := by
  induction n generalizing n' seen params with
  | zero => exact .excused rfl _
  | succ n ih =>
    obtain ⟨n', rfl⟩ := Nat.exists_eq_add_of_le' (Nat.one_le_of_lt steps)
    have refused (expected : String) (h : Handle) :
        ρ.AgreesUpTo Eq
          (do throw (.typeMismatch expected (← store.describe h)) : Except Failure Unit)
          (do throw (.typeMismatch expected (← store'.describe (ρ.handle h)))) :=
      (carried.describe .same h).throw fun _ _ same => .typeMismatch same
    unfold Store.checkParametersFrom
    apply (carried.heap.get params).bind
    rintro record _ rfl
    cases record with
    | nil => exact .ok rfl
    | symbol symbol => exact carried.requireNew form seen symbol
    | pair car cdr =>
      apply (carried.heap.get car).bind
      rintro parameter _ rfl
      cases parameter with
      | symbol symbol =>
        apply (carried.requireNew form seen symbol).bind
        rintro _ _ rfl
        exact ih (Nat.le_of_succ_le_succ steps) (symbol :: seen) cdr
      | _ => exact refused "symbol" car
    | _ => exact refused "parameter list" params

/-- Corresponding parameter lists pass, or fail for the same reason. -/
theorem checkParameters (carried : ρ.StoreCarried store store') (form : String)
    (params : Handle) :
    ρ.AgreesUpTo Eq (store.checkParameters form params)
      (store'.checkParameters form (ρ.handle params)) :=
  carried.checkParametersFrom form (Nat.succ_le_succ carried.heap.size_le) [] params

end StoreCarried

end Renaming

end ScopedLisp
