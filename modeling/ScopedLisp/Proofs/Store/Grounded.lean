import ScopedLisp.Proofs.Eval.Reading
import ScopedLisp.Proofs.Store.Chain

/-!
# Grounded stores

In a grounded store every handle in a record was issued by the table it points into, and points to
an older object if it points to one. This is all that is needed for links to lead to an end: nothing
is said about where the empty list is or what the parameters of a procedure are.
-/

namespace ScopedLisp

/-- The handles in a record at position `i` of the heap were issued, and the objects among them are
older than the record. -/
def Record.PointsBelow (store : Store) (i : Nat) : Record → Prop
  | .pair car cdr =>
    car.IssuedBefore .objects store.heap.owner i ∧ cdr.IssuedBefore .objects store.heap.owner i
  | .procedure params body _ =>
    params.IssuedBefore .objects store.heap.owner i ∧
      body.IssuedBefore .objects store.heap.owner i
  | .symbol name => name.IssuedBefore .symbols store.symbols.owner store.symbols.size
  | .string text => text.IssuedBefore .texts store.texts.owner store.texts.size
  | _ => True

/-- A handle has a name exactly if it is the handle of the place of that name. -/
theorem Symbols.name_eq_ok_iff {symbols : Symbols} {h : Handle} {name : String} :
    symbols.name h = .ok name ↔ ∃ i, h = symbols.handleAt i ∧ symbols.names[i]? = some name := by
  unfold Symbols.name
  constructor
  · intro found
    split at found
    · next i position =>
      cases found
      exact ⟨i, Handle.position?_eq_some_iff.mp position, List.getElem?_eq_getElem i.isLt⟩
    · cases found
  · rintro ⟨i, same, inside⟩
    obtain ⟨below, rfl⟩ := List.getElem?_eq_some_iff.mp inside
    have position : h.position? .symbols symbols.owner symbols.names.length = some ⟨i, below⟩ :=
      Handle.position?_eq_some_iff.mpr same
    rw [position]
    rfl

/-- The handles with a name are those that were issued. -/
theorem Symbols.exists_name_iff {symbols : Symbols} {h : Handle} :
    (∃ name, symbols.name h = .ok name) ↔
      h.IssuedBefore .symbols symbols.owner symbols.size := by
  constructor
  · rintro ⟨name, known⟩
    obtain ⟨i, same, inside⟩ := name_eq_ok_iff.mp known
    exact ⟨i, (List.getElem?_eq_some_iff.mp inside).1, same⟩
  · rintro ⟨i, below, same⟩
    exact ⟨_, name_eq_ok_iff.mpr ⟨i, same, List.getElem?_eq_getElem below⟩⟩

/-- A handle stands for a text exactly if it is the handle of the place of that text. -/
theorem Texts.get_eq_ok_iff {texts : Texts} {h : Handle} {text : String} :
    texts.get h = .ok text ↔
      ∃ i, h = texts.handleAt i ∧ texts.contents.toList[i]? = some text := by
  unfold Texts.get
  constructor
  · intro found
    split at found
    · next i position =>
      cases found
      exact ⟨i, Handle.position?_eq_some_iff.mp position, List.getElem?_eq_getElem i.isLt⟩
    · cases found
  · rintro ⟨i, same, inside⟩
    obtain ⟨below, rfl⟩ := List.getElem?_eq_some_iff.mp inside
    have position : h.position? .texts texts.owner texts.contents.size = some ⟨i, below⟩ :=
      Handle.position?_eq_some_iff.mpr same
    rw [position]
    rfl

namespace Store

/-- The object was issued by the store. -/
def Holds (store : Store) (h : Handle) : Prop :=
  h.IssuedBefore .objects store.heap.owner store.heap.size

theorem holds_of_owns {store : Store} {h : Handle} (owned : store.heap.owns h = true) :
    store.Holds h := by
  obtain ⟨place, found⟩ := Option.isSome_iff_exists.mp owned
  exact ⟨place, place.isLt, Handle.position?_eq_some_iff.mp found⟩

theorem name_eq (store : Store)
    (issued : h.IssuedBefore .symbols store.symbols.owner store.symbols.size) :
    ∃ name, store.symbols.name h = .ok name :=
  Symbols.exists_name_iff.mpr issued

theorem text_eq (store : Store)
    (issued : h.IssuedBefore .texts store.texts.owner store.texts.size) :
    ∃ text, store.texts.get h = .ok text := by
  obtain ⟨i, below, same⟩ := issued
  exact ⟨_, Texts.get_eq_ok_iff.mpr ⟨i, same, List.getElem?_eq_getElem below⟩⟩

/-- Records point to what was issued before them. -/
structure Grounded (store : Store) : Prop where
  points : ∀ {i : Nat} {record : Record}, store.heap.records[i]? = some record →
    record.PointsBelow store i

namespace Grounded

variable {store : Store} {h : Handle}

/-- The object at a handle among the first `limit + 1` points to objects among the first `limit`. -/
theorem points_of_issued (grounded : store.Grounded) {limit : Nat}
    (issued : h.IssuedBefore .objects store.heap.owner (limit + 1)) {record : Record}
    (stored : store.heap.get h = .ok record) :
    ∃ i ≤ limit, record.PointsBelow store i := by
  obtain ⟨i, older, -, inside⟩ := Heap.exists_index_of_issued issued stored
  exact ⟨i, older, grounded.points inside⟩

/-- What a chain leads to is older than the pair that it starts with. -/
theorem issued_of_chain (grounded : store.Grounded) {cars : List Handle} {last : Handle}
    {record : Record} (chain : store.heap.Chain h cars last record) {limit : Nat}
    (issued : h.IssuedBefore .objects store.heap.owner (limit + 1)) (some_items : cars ≠ []) :
    (∀ car ∈ cars, car.IssuedBefore .objects store.heap.owner limit) ∧
      last.IssuedBefore .objects store.heap.owner limit := by
  induction chain with
  | last _ _ => exact absurd rfl some_items
  | @link h car cdr last cars record stored rest ih =>
    obtain ⟨i, older, first, second⟩ := grounded.points_of_issued issued stored
    have car_issued := first.mono older
    have cdr_issued := second.mono older
    by_cases none : cars = []
    · subst none
      cases rest with
      | last _ _ => exact ⟨List.forall_mem_singleton.mpr car_issued, cdr_issued⟩
    · obtain ⟨cars_issued, last_issued⟩ := ih (cdr_issued.mono (Nat.le_succ limit)) none
      exact ⟨List.forall_mem_cons.mpr ⟨car_issued, cars_issued⟩, last_issued⟩

/-- The elements of a stored chain are stored. -/
theorem holds_of_chain (grounded : store.Grounded) {cars : List Handle} {last : Handle}
    {record : Record} (chain : store.heap.Chain h cars last record) (held : store.Holds h) :
    ∀ car ∈ cars, store.Holds car := by
  intro car member
  have issued := held.mono (Nat.le_succ _)
  exact (grounded.issued_of_chain chain issued (List.ne_nil_of_mem member)).1 car member

/-- Every object starts a chain. -/
theorem exists_chain (grounded : store.Grounded) (held : store.Holds h) :
    ∃ cars last record, store.heap.Chain h cars last record := by
  obtain ⟨i, below, rfl⟩ := held
  induction i using Nat.strongRecOn with
  | ind i ih =>
    have inside : store.heap.records[i]? = some store.heap.records[i] :=
      Array.getElem?_eq_getElem below
    have stored := Heap.get_handleAt_iff.mpr inside
    by_cases linked : ∃ car cdr, store.heap.records[i] = .pair car cdr
    · obtain ⟨car, cdr, pair⟩ := linked
      rw [pair] at stored inside
      obtain ⟨-, j, older, rfl⟩ := grounded.points inside
      obtain ⟨cars, last, record, chain⟩ := ih j older (Nat.lt_trans older below)
      exact ⟨car :: cars, last, record, .link stored chain⟩
    · exact ⟨[], _, _, .last stored fun car cdr same => linked ⟨car, cdr, same⟩⟩

end Grounded

end Store

end ScopedLisp
