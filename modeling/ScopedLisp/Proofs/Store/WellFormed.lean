import ScopedLisp.Proofs.Store.Interning
import ScopedLisp.Proofs.Store.Tree

/-!
# Well-formed stores

In a well-formed store every handle in a record was issued by the table it points into, and a
record refers to older objects only. So the links of the heap never lead round in a circle: every
chain of pairs has an end, and the walks and the printer reach it.
-/

namespace ScopedLisp

/-- The handles in a record at position `i` of the heap were issued; the objects among them are
older than the record, and parameters of a procedure pass their check. -/
def Record.RefersBelow (store : Store) (i : Nat) : Record → Prop
  | .pair car cdr =>
    car.IssuedBefore .objects store.heap.owner i ∧ cdr.IssuedBefore .objects store.heap.owner i
  | .procedure params body _ =>
    params.IssuedBefore .objects store.heap.owner i ∧
      body.IssuedBefore .objects store.heap.owner i ∧
      ∀ form, store.checkParameters form params = .ok ()
  | .symbol name => name.IssuedBefore .symbols store.symbols.owner store.symbols.size
  | .string text => text.IssuedBefore .texts store.texts.owner store.texts.size
  | _ => True

/-- The record is neither the empty list nor a procedure. -/
def Record.isData : Record → Bool
  | .nil | .procedure _ _ _ => false
  | _ => true

/-- The handle a text is given stands for it. -/
theorem Texts.get_insert (texts : Texts) (text : String) :
    (texts.insert text).1.get (texts.insert text).2 = .ok text := by
  rw [get_eq_ok_iff]
  refine ⟨texts.size, rfl, ?_⟩
  simp only [insert, Array.toList_push]
  exact List.getElem?_concat_length

/-- Only handles that were issued stand for a text. -/
theorem Texts.issued_of_get {texts : Texts} {h : Handle} {text : String}
    (known : texts.get h = .ok text) : h.IssuedBefore .texts texts.owner texts.size := by
  obtain ⟨i, same, inside⟩ := get_eq_ok_iff.mp known
  exact ⟨i, (List.getElem?_eq_some_iff.mp inside).1, same⟩

theorem getElem?_of_prefix {α : Type} {xs ys : List α} (initial : xs <+: ys) {i : Nat} {value : α}
    (inside : xs[i]? = some value) : ys[i]? = some value := by
  obtain ⟨below, rfl⟩ := List.getElem?_eq_some_iff.mp inside
  exact List.getElem?_eq_some_iff.mpr
    ⟨Nat.lt_of_lt_of_le below initial.length_le, (initial.getElem below).symm⟩

namespace Store

/-- A parameter passes as new exactly if it was not seen before. -/
theorem requireNew_eq_ok_iff {store : Store} {form : String} {seen : List Handle}
    {symbol : Handle} :
    store.requireNew form seen symbol = .ok () ↔ seen.contains symbol = false := by
  unfold requireNew
  cases seen.contains symbol with
  | false => exact ⟨fun _ => rfl, fun _ => rfl⟩
  | true => exact ⟨fun passed => absurd passed (bind_throw_ne_ok _ _ _), fun new => by cases new⟩

/-- Records refer to what was issued before them, and only the first is the empty list. -/
structure WellFormed (store : Store) : Prop where
  refers : ∀ {i : Nat} {record : Record}, store.heap.records[i]? = some record →
    record.RefersBelow store i
  nil_iff : ∀ i : Nat, store.heap.records[i]? = some .nil ↔ i = 0

/-- The tables of the one store are initial parts of those of the other. -/
structure Extends (store store' : Store) : Prop where
  heap : store.heap.Extends store'.heap
  symbolsOwner : store'.symbols.owner = store.symbols.owner
  names : store.symbols.names <+: store'.symbols.names
  textsOwner : store'.texts.owner = store.texts.owner
  contents : store.texts.contents.toList <+: store'.texts.contents.toList

namespace Extends

variable {store store' store'' : Store} {h : Handle}

theorem refl (store : Store) : store.Extends store :=
  ⟨.refl _, rfl, List.prefix_refl _, rfl, List.prefix_refl _⟩

theorem trans (first : store.Extends store') (second : store'.Extends store'') :
    store.Extends store'' :=
  ⟨first.heap.trans second.heap, second.symbolsOwner.trans first.symbolsOwner,
    first.names.trans second.names, second.textsOwner.trans first.textsOwner,
    first.contents.trans second.contents⟩

/-- A larger store holds what the smaller one held. -/
theorem holds (grown : store.Extends store') (held : store.Holds h) : store'.Holds h := by
  unfold Holds
  rw [grown.heap.owner]
  exact held.mono grown.heap.size_le

theorem symbol_issued (grown : store.Extends store')
    (issued : h.IssuedBefore .symbols store.symbols.owner store.symbols.size) :
    h.IssuedBefore .symbols store'.symbols.owner store'.symbols.size := by
  rw [grown.symbolsOwner]
  exact issued.mono grown.names.length_le

theorem text_issued (grown : store.Extends store')
    (issued : h.IssuedBefore .texts store.texts.owner store.texts.size) :
    h.IssuedBefore .texts store'.texts.owner store'.texts.size := by
  rw [grown.textsOwner]
  exact issued.mono grown.contents.length_le

/-- In a larger store a symbol has the name it had. -/
theorem symbolName {name : String} (grown : store.Extends store')
    (known : store.symbols.name h = .ok name) : store'.symbols.name h = .ok name := by
  obtain ⟨i, same, inside⟩ := Symbols.name_eq_ok_iff.mp known
  refine Symbols.name_eq_ok_iff.mpr ⟨i, ?_, getElem?_of_prefix grown.names inside⟩
  rw [same, Symbols.handleAt, Symbols.handleAt, grown.symbolsOwner]

/-- In a larger store a text reads as it did. -/
theorem text {text : String} (grown : store.Extends store')
    (known : store.texts.get h = .ok text) : store'.texts.get h = .ok text := by
  obtain ⟨i, same, inside⟩ := Texts.get_eq_ok_iff.mp known
  refine Texts.get_eq_ok_iff.mpr ⟨i, ?_, getElem?_of_prefix grown.contents inside⟩
  rw [same, Texts.handleAt, Texts.handleAt, grown.textsOwner]

/-- Parameters that passed their check pass it for any form and in a larger store. -/
theorem checkParametersFrom (grown : store.Extends store') {form : String} (form' : String)
    {steps : Nat} (more : Nat) {seen : List Handle} {params : Handle}
    (passed : store.checkParametersFrom form steps seen params = .ok ()) :
    store'.checkParametersFrom form' (steps + more) seen params = .ok () := by
  induction steps generalizing seen params with
  | zero => cases passed
  | succ steps ih =>
    rw [Nat.succ_add]
    unfold Store.checkParametersFrom at passed ⊢
    cases stored : store.heap.get params with
    | error failure =>
      rw [stored] at passed
      cases passed
    | ok record =>
      rw [stored] at passed
      rw [grown.heap.get stored]
      cases record with
      | nil => rfl
      | symbol symbol => exact requireNew_eq_ok_iff.mpr (requireNew_eq_ok_iff.mp passed)
      | pair car cdr =>
        dsimp only [bind, Except.bind] at passed ⊢
        cases first : store.heap.get car with
        | error failure =>
          rw [first] at passed
          cases passed
        | ok parameter =>
          rw [first] at passed
          rw [grown.heap.get first]
          cases parameter with
          | symbol symbol =>
            dsimp only at passed ⊢
            cases new : store.requireNew form seen symbol with
            | error failure =>
              rw [new] at passed
              cases passed
            | ok _ =>
              rw [new] at passed
              rw [requireNew_eq_ok_iff.mpr (requireNew_eq_ok_iff.mp new)]
              exact ih passed
          | _ => exact absurd passed (bind_throw_ne_ok _ _ _)
      | _ => exact absurd passed (bind_throw_ne_ok _ _ _)

/-- A parameter list that passes keeps passing while the store grows, under the name of any form. -/
theorem checkParameters (grown : store.Extends store') {form : String} {params : Handle}
    (passed : store.checkParameters form params = .ok ()) (form' : String) :
    store'.checkParameters form' params = .ok () := by
  obtain ⟨more, larger⟩ := Nat.exists_eq_add_of_le grown.heap.size_le
  rw [Store.checkParameters, larger, Nat.add_right_comm]
  exact grown.checkParametersFrom form' more passed

/-- A record that refers to earlier objects does so in a larger store. -/
theorem refersBelow {record : Record} {i : Nat} (grown : store.Extends store')
    (below : record.RefersBelow store i) : record.RefersBelow store' i := by
  cases record with
  | pair car cdr => exact ⟨grown.heap.issued below.1, grown.heap.issued below.2⟩
  | procedure params body scope =>
    exact ⟨grown.heap.issued below.1, grown.heap.issued below.2.1, fun form =>
      grown.checkParameters (below.2.2 form) form⟩
  | symbol name => exact grown.symbol_issued below
  | string text => exact grown.text_issued below
  | nil | keyword _ | operator _ | integer _ | boolean _ | character _ | foreign _ => trivial

end Extends

namespace WellFormed

variable {store : Store} {h : Handle}

/-- A stored record stands at an index of the heap and refers to objects before it. -/
theorem refers_of_get (wf : store.WellFormed) {record : Record}
    (stored : store.heap.get h = .ok record) :
    ∃ i < store.heap.size, h = store.heap.handleAt i ∧ record.RefersBelow store i := by
  obtain ⟨i, below, same, inside⟩ := Heap.exists_index_of_get stored
  exact ⟨i, below, same, wf.refers inside⟩

/-- The object at a handle among the first `limit + 1` refers to objects among the first
`limit`. -/
theorem refers_of_issued (wf : store.WellFormed) {limit : Nat}
    (issued : h.IssuedBefore .objects store.heap.owner (limit + 1)) {record : Record}
    (stored : store.heap.get h = .ok record) :
    ∃ i ≤ limit, i < store.heap.size ∧ record.RefersBelow store i := by
  obtain ⟨i, older, below, inside⟩ := Heap.exists_index_of_issued issued stored
  exact ⟨i, older, below, wf.refers inside⟩

/-- In a well-formed store every record refers only to objects before it, so no chain of pairs is
endless. -/
theorem grounded (wf : store.WellFormed) : store.Grounded := by
  constructor
  intro i record inside
  have refers := wf.refers inside
  cases record with
  | procedure params body scope => exact ⟨refers.1, refers.2.1⟩
  | _ => exact refers

/-- The parts of a stored pair are stored. -/
theorem pair_holds (wf : store.WellFormed) {car cdr : Handle}
    (stored : store.heap.get h = .ok (.pair car cdr)) : store.Holds car ∧ store.Holds cdr := by
  obtain ⟨i, below, _, first, second⟩ := wf.refers_of_get stored
  exact ⟨first.mono (Nat.le_of_lt below), second.mono (Nat.le_of_lt below)⟩

/-- The name of a stored symbol was issued by the symbol table. -/
theorem symbol_issued (wf : store.WellFormed) {name : Handle}
    (stored : store.heap.get h = .ok (.symbol name)) :
    name.IssuedBefore .symbols store.symbols.owner store.symbols.size := by
  obtain ⟨_, _, _, issued⟩ := wf.refers_of_get stored
  exact issued

theorem nil_holds (wf : store.WellFormed) : store.Holds store.heap.nil := by
  obtain ⟨below, _⟩ := Array.getElem?_eq_some_iff.mp ((wf.nil_iff 0).mpr rfl)
  exact ⟨0, below, rfl⟩

/-- The end of a walk along a list that may go as far as the heap is large. -/
theorem listing_eq (wf : store.WellFormed) (held : store.Holds h) :
    ∃ cars last record, store.heap.Chain h cars last record ∧ (∀ car ∈ cars, store.Holds car) ∧
      store.heap.listing h = ⟨cars, if record = .nil then none else some (.improperList last)⟩ := by
  obtain ⟨cars, last, record, chain⟩ := wf.grounded.exists_chain held
  have all_held := wf.grounded.holds_of_chain chain held
  exact ⟨cars, last, record, chain, all_held, chain.walk (Nat.lt_succ_of_lt chain.length_lt_size) _⟩

/-- Listing the elements of a stored object succeeds or fails without a fault. -/
theorem elements_failsSafely (wf : store.WellFormed) (held : store.Holds h) :
    FailsSafely (store.heap.elements h) := by
  obtain ⟨cars, last, record, _, _, listing⟩ := wf.listing_eq held
  rw [Heap.elements, listing]
  split
  · exact .ok cars
  · exact .error rfl

/-- Elements that are listed form a chain of pairs that ends in nil, and each of them is stored. -/
theorem chain_of_elements (wf : store.WellFormed) (held : store.Holds h) {items : List Handle}
    (found : store.heap.elements h = .ok items) :
    (∃ last, store.heap.Chain h items last .nil) ∧ ∀ item ∈ items, store.Holds item := by
  obtain ⟨last, chain⟩ := Heap.elements_eq_ok_iff.mp found
  exact ⟨⟨last, chain⟩, wf.grounded.holds_of_chain chain held⟩

/-- The shape of any stored object used as a parameter list can be told: the number of its pairs,
which is less than the size of the heap, and whether a rest parameter follows. -/
theorem parameterShape_eq (wf : store.WellFormed) (held : store.Holds h) :
    ∃ cars last record variadic, store.heap.Chain h cars last record ∧
      cars.length < store.heap.size ∧
      store.heap.parameterShape h = .ok (cars.length, variadic) := by
  obtain ⟨cars, last, record, chain⟩ := wf.grounded.exists_chain held
  exact ⟨cars, last, record, _, chain, chain.length_lt_size, chain.parameterShape_eq rfl⟩

/-! ### Growing -/

theorem insert_extends (store : Store) (record : Record) :
    store.Extends { store with heap := (store.heap.insert record).1 } :=
  ⟨.insert store.heap record, rfl, List.prefix_refl _, rfl, List.prefix_refl _⟩

/-- A record that is inserted is held under the handle it is given. -/
theorem insert_holds (store : Store) (record : Record) :
    { store with heap := (store.heap.insert record).1 }.Holds (store.heap.insert record).2 := by
  refine ⟨store.heap.size, ?_, rfl⟩
  simp only [Heap.insert, Heap.size, Array.size_push]
  exact Nat.lt_succ_self _

/-- A record may be added whose handles were issued before. -/
theorem insert (wf : store.WellFormed) {record : Record}
    (below : record.RefersBelow store store.heap.size) (other : record ≠ .nil) :
    { store with heap := (store.heap.insert record).1 }.WellFormed := by
  have grown := insert_extends store record
  have cases_of {i : Nat} {entry : Record}
      (inside : (store.heap.insert record).1.records[i]? = some entry) :
      i = store.heap.size ∧ entry = record ∨ store.heap.records[i]? = some entry := by
    rw [Heap.insert, Array.getElem?_push] at inside
    split at inside
    · next same =>
      cases inside
      exact .inl ⟨same, rfl⟩
    · exact .inr inside
  refine ⟨fun inside => ?_, fun i => ⟨fun inside => ?_, ?_⟩⟩
  · rcases cases_of inside with ⟨rfl, rfl⟩ | old
    · exact grown.refersBelow below
    · exact grown.refersBelow (wf.refers old)
  · rcases cases_of inside with ⟨_, same⟩ | old
    · exact absurd same.symm other
    · exact (wf.nil_iff i).mp old
  · rintro rfl
    exact grown.heap.records ((wf.nil_iff 0).mpr rfl)

theorem intern_extends (store : Store) (name : String) :
    store.Extends { store with symbols := (store.symbols.intern name).1 } := by
  unfold Symbols.intern
  split
  · exact .refl _
  · exact ⟨.refl _, rfl, List.prefix_append _ _, rfl, List.prefix_refl _⟩

theorem enter_extends (store : Store) (text : String) :
    store.Extends { store with texts := (store.texts.insert text).1 } := by
  refine ⟨.refl _, rfl, List.prefix_refl _, rfl, ?_⟩
  simp only [Texts.insert, Array.toList_push]
  exact List.prefix_append _ _

/-- The tables of symbols and texts may grow. -/
theorem grow (wf : store.WellFormed) {symbols : Symbols} {texts : Texts}
    (grown : store.Extends { store with symbols, texts }) :
    { store with symbols, texts }.WellFormed :=
  ⟨fun inside => grown.refersBelow (wf.refers inside), wf.nil_iff⟩

/-! ### Printing -/

/-- What can go wrong in printing is that an integer has too many digits. -/
theorem render_failsWithin {allowed : Failure → Bool} (digits : allowed .tooManyDigits = true)
    (wf : store.WellFormed) (held : store.Holds h) : FailsWithin allowed (store.render h) := by
  obtain ⟨tree, unfolded⟩ := wf.grounded.exists_tree held
  rw [wf.grounded.render_unfolded unfolded held]
  intro failure failed
  rw [((tree.converts_text failure).mp failed).1]
  exact digits

/-- Rendering a stored object succeeds or fails without a fault. -/
theorem render_failsSafely (wf : store.WellFormed) (held : store.Holds h) :
    FailsSafely (store.render h) :=
  render_failsWithin rfl wf held

theorem describe_failsSafely (wf : store.WellFormed) (held : store.Holds h) :
    FailsSafely (store.describe h) := by
  obtain ⟨record, stored⟩ := Heap.get_of_issued held
  unfold describe
  rw [stored]
  exact (wf.render_failsSafely held).bind fun _ => .ok _

/-! ### Checking parameters -/

theorem requireNew_failsSafely (form : String) (seen : List Handle)
    (issued : h.IssuedBefore .symbols store.symbols.owner store.symbols.size) :
    FailsSafely (store.requireNew form seen h) := by
  obtain ⟨name, named⟩ := name_eq store issued
  unfold requireNew
  split
  · exact .after_ok named (.error rfl)
  · exact .ok _

/-- The check of a parameter list, begun at any of its pairs, stays within a well-formed store. The
walk does not run out of steps because each pair refers to earlier ones. -/
theorem checkParametersFrom_failsSafely (wf : store.WellFormed) (form : String) {steps : Nat}
    (seen : List Handle) (issued : h.IssuedBefore .objects store.heap.owner steps)
    (held : store.Holds h) : FailsSafely (store.checkParametersFrom form steps seen h) := by
  induction steps generalizing seen h with
  | zero =>
    obtain ⟨_, below, _⟩ := issued
    cases below
  | succ steps ih =>
    obtain ⟨record, stored⟩ := Heap.get_of_issued held
    refine .after_ok stored ?_
    cases record with
    | nil => exact .ok _
    | symbol symbol => exact requireNew_failsSafely form seen (wf.symbol_issued stored)
    | pair car cdr =>
      obtain ⟨i, older, inside, _, cdr_issued⟩ := wf.refers_of_issued issued stored
      obtain ⟨car_held, cdr_held⟩ := wf.pair_holds stored
      obtain ⟨parameter, first⟩ := Heap.get_of_issued car_held
      refine .after_ok first ?_
      cases parameter with
      | symbol symbol =>
        apply (requireNew_failsSafely form seen (wf.symbol_issued first)).bind
        intro _
        exact ih (symbol :: seen) (cdr_issued.mono older) cdr_held
      | _ => exact (wf.describe_failsSafely car_held).bind fun _ => .error rfl
    | _ => exact (wf.describe_failsSafely held).bind fun _ => .error rfl

/-- Any stored object can be checked as a parameter list. -/
theorem checkParameters_failsSafely (wf : store.WellFormed) (form : String)
    (held : store.Holds h) : FailsSafely (store.checkParameters form h) :=
  wf.checkParametersFrom_failsSafely form [] (held.mono (Nat.le_succ _)) held

end WellFormed

end Store

end ScopedLisp
