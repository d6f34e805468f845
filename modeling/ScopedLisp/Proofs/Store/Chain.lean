import Mathlib.Data.Fintype.Card
import ScopedLisp.Eval.Parameters

/-!
# Chains of pairs

What a list is apart from any bound on the steps of a walk along it: pairs linked through their
second fields, and the record behind the last of them. The walks of the heap are determined by the
chain at which they start as soon as they may take more steps than it has pairs, and what is added
to the heap later does not change a chain. An end is reached only without going round in a circle,
so no chain is as long as the heap.
-/

namespace ScopedLisp

/-- The handle is one of the first `limit` that the owner's table of this kind issued. -/
def Handle.IssuedBefore (h : Handle) (table : Table) (owner limit : Nat) : Prop :=
  ∃ i < limit, h = ⟨table, i, owner⟩

theorem Handle.IssuedBefore.mono {h : Handle} {table : Table} {owner limit later : Nat}
    (issued : h.IssuedBefore table owner limit) (grown : limit ≤ later) :
    h.IssuedBefore table owner later := by
  obtain ⟨i, below, same⟩ := issued
  exact ⟨i, Nat.lt_of_lt_of_le below grown, same⟩

theorem Handle.IssuedBefore.position? {h : Handle} {table : Table} {owner size : Nat}
    (issued : h.IssuedBefore table owner size) : ∃ i, h.position? table owner size = some i := by
  obtain ⟨i, below, same⟩ := issued
  exact ⟨⟨i, below⟩, Handle.position?_eq_some_iff.mpr same⟩

/-- What was not issued has another kind or owner, or its index is out of range. -/
theorem Handle.not_issuedBefore_iff {h : Handle} {table : Table} {owner limit : Nat} :
    ¬h.IssuedBefore table owner limit ↔
      h.table ≠ table ∨ h.owner ≠ owner ∨ h.index < 0 ∨ limit ≤ h.index := by
  obtain ⟨kind, index, issuer⟩ := h
  constructor
  · intro unissued
    by_contra inside
    simp only [ne_eq, not_or, not_not, not_lt, not_le] at inside
    obtain ⟨rfl, rfl, lower, upper⟩ := inside
    have same : ((index.toNat : Nat) : Int) = index := Int.toNat_of_nonneg lower
    exact unissued ⟨index.toNat, by omega, by rw [same]⟩
  · rintro outside ⟨i, below, same⟩
    cases same
    rcases outside with other | foreign | negative | beyond
    · exact other rfl
    · exact foreign rfl
    · exact Int.not_le.mpr negative (Int.natCast_nonneg i)
    · exact Nat.not_le.mpr below (Int.ofNat_le.mp beyond)

namespace Heap

/-- Every record of the one heap is in its place in the other. -/
structure Extends (heap heap' : Heap) : Prop where
  owner : heap'.owner = heap.owner
  records : ∀ {i : Nat} {record : Record}, heap.records[i]? = some record →
    heap'.records[i]? = some record

theorem get_handleAt_iff {heap : Heap} {i : Nat} {record : Record} :
    heap.get (heap.handleAt i) = .ok record ↔ heap.records[i]? = some record := by
  rw [get_eq_ok_iff, Array.getElem?_eq_some_iff]
  constructor
  · rintro ⟨j, same, stored⟩
    obtain rfl : i = j := by
      simp only [handleAt, Handle.mk.injEq, Int.natCast_inj, true_and, and_true] at same
      exact same
    exact ⟨j.isLt, stored⟩
  · rintro ⟨below, stored⟩
    exact ⟨⟨i, below⟩, rfl, stored⟩

theorem exists_index_of_get {heap : Heap} {h : Handle} {record : Record}
    (stored : heap.get h = .ok record) :
    ∃ i < heap.size, h = heap.handleAt i ∧ heap.records[i]? = some record := by
  obtain ⟨i, same, inside⟩ := get_eq_ok_iff.mp stored
  exact ⟨i, i.isLt, same, Array.getElem?_eq_some_iff.mpr ⟨i.isLt, inside⟩⟩

/-- The object at a handle among the first `limit + 1` is one of these records. -/
theorem exists_index_of_issued {heap : Heap} {h : Handle} {limit : Nat}
    (issued : h.IssuedBefore .objects heap.owner (limit + 1)) {record : Record}
    (stored : heap.get h = .ok record) :
    ∃ i ≤ limit, i < heap.size ∧ heap.records[i]? = some record := by
  obtain ⟨i, below, rfl⟩ := issued
  have inside := get_handleAt_iff.mp stored
  exact ⟨i, Nat.le_of_lt_succ below, (Array.getElem?_eq_some_iff.mp inside).1, inside⟩

theorem get_of_issued {heap : Heap} {h : Handle}
    (issued : h.IssuedBefore .objects heap.owner heap.size) :
    ∃ record, heap.get h = .ok record := by
  obtain ⟨i, below, same⟩ := issued
  exact ⟨heap.records[i], get_eq_ok_iff.mpr ⟨⟨i, below⟩, same, rfl⟩⟩

namespace Extends

variable {heap heap' heap'' : Heap}

theorem refl (heap : Heap) : heap.Extends heap := ⟨rfl, id⟩

theorem trans (first : heap.Extends heap') (second : heap'.Extends heap'') :
    heap.Extends heap'' :=
  ⟨second.owner.trans first.owner, second.records ∘ first.records⟩

theorem size_le (grown : heap.Extends heap') : heap.size ≤ heap'.size := by
  apply Nat.le_of_not_lt
  intro inside
  have kept := grown.records (Array.getElem?_eq_getElem inside)
  have outside : heap'.records[heap'.size]? = none := Array.getElem?_eq_none (Nat.le_refl _)
  cases outside.symm.trans kept

theorem get {h : Handle} {record : Record} (grown : heap.Extends heap')
    (stored : heap.get h = .ok record) : heap'.get h = .ok record := by
  obtain ⟨i, _, rfl, inside⟩ := exists_index_of_get stored
  have same : heap.handleAt i = heap'.handleAt i := by rw [handleAt, handleAt, grown.owner]
  rw [same, get_handleAt_iff]
  exact grown.records inside

theorem issued {h : Handle} {limit : Nat} (grown : heap.Extends heap')
    (before : h.IssuedBefore .objects heap.owner limit) :
    h.IssuedBefore .objects heap'.owner limit := by
  rw [grown.owner]
  exact before

theorem insert (heap : Heap) (record : Record) : heap.Extends (heap.insert record).1 := by
  refine ⟨rfl, fun {i other} inside => ?_⟩
  obtain ⟨below, stored⟩ := Array.getElem?_eq_some_iff.mp inside
  rw [Heap.insert, Array.getElem?_push_lt below, stored]

end Extends

/-! ### Chains -/

/-- Pairs lead from `h` through `cars` to the handle `last`, at which there is a `record` that is
no pair. -/
inductive Chain (heap : Heap) : Handle → List Handle → Handle → Record → Prop where
  | last {h : Handle} {record : Record} (stored : heap.get h = .ok record)
      (final : ∀ car cdr, record ≠ .pair car cdr) : Chain heap h [] h record
  | link {h car cdr last : Handle} {cars : List Handle} {record : Record}
      (stored : heap.get h = .ok (.pair car cdr)) (rest : Chain heap cdr cars last record) :
      Chain heap h (car :: cars) last record

namespace Chain

variable {heap heap' : Heap} {h last : Handle} {cars : List Handle} {record : Record}

theorem mono (chain : heap.Chain h cars last record) (grown : heap.Extends heap') :
    heap'.Chain h cars last record := by
  induction chain with
  | last stored final => exact .last (grown.get stored) final
  | link stored _ ih => exact .link (grown.get stored) ih

theorem get_last (chain : heap.Chain h cars last record) : heap.get last = .ok record := by
  induction chain with
  | last stored _ => exact stored
  | link _ _ ih => exact ih

theorem spine (chain : heap.Chain h cars last record) {steps : Nat}
    (enough : cars.length < steps) : heap.spine steps h = .ok (cars, last, record) := by
  induction chain generalizing steps with
  | @last h record stored final =>
    obtain ⟨rest, rfl⟩ := Nat.exists_eq_add_of_lt enough
    cases record with
    | pair car cdr => exact absurd rfl (final car cdr)
    | _ => simp [Heap.spine, stored, bind, Except.bind, pure, Except.pure]
  | link stored _ ih =>
    cases steps with
    | zero => cases enough
    | succ steps =>
      have rest := ih (Nat.lt_of_succ_lt_succ enough)
      simp [Heap.spine, stored, rest, bind, Except.bind, pure, Except.pure]

theorem walk (chain : heap.Chain h cars last record) {count : Nat}
    (enough : cars.length < count) (limit : Listing Handle) :
    heap.walk limit count h =
      ⟨cars, if record = .nil then none else some (.improperList last)⟩ := by
  induction chain generalizing count with
  | @last h record stored final =>
    obtain ⟨rest, rfl⟩ := Nat.exists_eq_add_of_lt enough
    cases record with
    | pair car cdr => exact absurd rfl (final car cdr)
    | _ => simp [Heap.walk, stored, Listing.empty, Listing.failed]
  | link stored _ ih =>
    cases count with
    | zero => cases enough
    | succ count =>
      rw [Heap.walk, stored]
      simp only [ih (Nat.lt_of_succ_lt_succ enough), Listing.cons]

/-- One chain leads from each object. -/
theorem unique {cars' : List Handle} {last' : Handle} {record' : Record}
    (chain : heap.Chain h cars last record) (other : heap.Chain h cars' last' record') :
    cars' = cars ∧ last' = last ∧ record' = record := by
  have first := chain.spine (Nat.lt_succ_of_le (Nat.le_add_right cars.length cars'.length))
  have second := other.spine (Nat.lt_succ_of_le (Nat.le_add_left cars'.length cars.length))
  cases second.symm.trans first
  exact ⟨rfl, rfl, rfl⟩

/-- The records along a chain stand at different places, since from each of them the end is at
another distance. -/
theorem exists_places (chain : heap.Chain h cars last record) :
    ∃ places : List (Fin heap.records.size), places.length = cars.length + 1 ∧ places.Nodup ∧
      ∀ i ∈ places, ∃ cars', cars'.length ≤ cars.length ∧
        heap.Chain (heap.handleAt i) cars' last record := by
  induction chain with
  | @last h record stored final =>
    obtain ⟨i, rfl, -⟩ := get_eq_ok_iff.mp stored
    refine ⟨[i], rfl, List.nodup_singleton i, List.forall_mem_singleton.mpr ?_⟩
    exact ⟨[], Nat.le_refl _, .last stored final⟩
  | @link h car cdr last cars record stored rest ih =>
    obtain ⟨i, rfl, -⟩ := get_eq_ok_iff.mp stored
    obtain ⟨places, length, nodup, closer⟩ := ih
    have whole := Chain.link stored rest
    refine ⟨i :: places, congrArg Nat.succ length, List.nodup_cons.mpr ⟨fun again => ?_, nodup⟩, ?_⟩
    · obtain ⟨cars', shorter, chain⟩ := closer i again
      rw [(whole.unique chain).1] at shorter
      exact Nat.lt_irrefl _ shorter
    · refine List.forall_mem_cons.mpr ⟨⟨_, Nat.le_refl _, whole⟩, fun j member => ?_⟩
      obtain ⟨cars', shorter, chain⟩ := closer j member
      exact ⟨cars', Nat.le_succ_of_le shorter, chain⟩

theorem length_lt_size (chain : heap.Chain h cars last record) : cars.length < heap.size := by
  obtain ⟨places, length, nodup, -⟩ := chain.exists_places
  have few := nodup.length_le_card
  rw [Fintype.card_fin, length] at few
  exact few

/-- As parameters are counted the pairs of the chain, whatever is in them. -/
theorem parameterShape_eq {variadic : Bool} (ends : (record matches .symbol _) = variadic)
    (chain : heap.Chain h cars last record) :
    heap.parameterShape h = .ok (cars.length, variadic) := by
  rw [parameterShape, chain.spine (Nat.lt_succ_of_lt chain.length_lt_size), ← ends]
  rfl

end Chain

/-- A walk that delivers its items without a failure has followed a chain to the empty list. -/
theorem chain_of_walk {heap : Heap} {h : Handle} {items : List Handle} {failure : Failure}
    {count : Nat} (walked : heap.walk (.failed failure) count h = ⟨items, none⟩) :
    ∃ last, heap.Chain h items last .nil := by
  induction count generalizing h items with
  | zero => cases walked
  | succ count ih =>
    cases found : heap.get h with
    | error failure =>
      rw [Heap.walk, found] at walked
      cases walked
    | ok record =>
      rw [Heap.walk, found] at walked
      cases record with
      | nil =>
        cases walked
        exact ⟨h, .last found nofun⟩
      | pair car cdr =>
        dsimp only at walked
        generalize shape : heap.walk (.failed failure) count cdr = rest at walked
        obtain ⟨delivered, ended⟩ := rest
        cases walked
        obtain ⟨last, chain⟩ := ih shape
        exact ⟨last, .link found chain⟩
      | _ => cases walked

/-- The elements of a list are the cars of a chain that ends in the empty list. -/
theorem elements_eq_ok_iff {heap : Heap} {h : Handle} {items : List Handle} :
    heap.elements h = .ok items ↔ ∃ last, heap.Chain h items last .nil := by
  rw [elements, listing, Listing.all_eq_ok_iff]
  constructor
  · exact chain_of_walk
  · rintro ⟨last, chain⟩
    rw [chain.walk (Nat.lt_succ_of_lt chain.length_lt_size), if_pos rfl]

/-- A chain that ends in anything but the empty list is no list, and what is told is its end. -/
theorem Chain.elements_eq_error {heap : Heap} {h last : Handle} {cars : List Handle}
    {record : Record} (chain : heap.Chain h cars last record) (improper : record ≠ .nil) :
    heap.elements h = .error (.improperList last) := by
  rw [elements, listing, chain.walk (Nat.lt_succ_of_lt chain.length_lt_size), if_neg improper]
  rfl

end Heap

end ScopedLisp
