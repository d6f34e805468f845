import ScopedLisp.Proofs.Store.Chain
import ScopedLisp.Proofs.Token.Lexing

/-!
# Lists as they are built and as they are read

A list is built from its last item to its first and read from its first item to its last. The pairs
that were built lead through the items to whatever the list was built in front of, which need not be
a list and need not be an object at all. So a reader is given the items, and then what a reader of
the tail is given, also if the heap grows between one item and the next.
-/

namespace ScopedLisp.Heap

/-! ### Further records -/

/-- Appends records one after another. -/
def insertAll (heap : Heap) (records : List Record) : Heap :=
  records.foldl (fun grown record => (grown.insert record).1) heap

theorem insertAll_append (heap : Heap) (records more : List Record) :
    heap.insertAll (records ++ more) = (heap.insertAll records).insertAll more :=
  List.foldl_append

theorem extends_insertAll (heap : Heap) (records : List Record) :
    heap.Extends (heap.insertAll records) := by
  induction records generalizing heap with
  | nil => exact .refl heap
  | cons record rest ih => exact (Extends.insert heap record).trans (ih _)

/-! ### Reading while the heap grows -/

/-- What a reader of the list at `h` is given who asks for one item after another. Before each item
that is asked for a batch of records is added to the heap, and `atLimit` is what the reader takes
instead of asking once more. -/
def deliveries (atLimit : Listing Handle) (heap : Heap) :
    List (List Record) → Handle → Listing Handle
  | [], _ => atLimit
  | batch :: batches, h =>
    match (heap.insertAll batch).get h with
    | .error failure => .failed failure
    | .ok (.pair car cdr) => (deliveries atLimit (heap.insertAll batch) batches cdr).cons car
    | .ok .nil => .empty
    | .ok _ => .failed (.improperList h)

/-- A reader for whom the heap stands still walks along the list. -/
theorem deliveries_replicate (atLimit : Listing Handle) (heap : Heap) (count : Nat) (h : Handle) :
    deliveries atLimit heap (List.replicate count []) h = heap.walk atLimit count h := by
  induction count generalizing h with
  | zero => rfl
  | succ count ih =>
    rw [List.replicate_succ, deliveries, walk, show heap.insertAll [] = heap from rfl]
    cases heap.get h with
    | error failure => rfl
    | ok record =>
      cases record with
      | pair car cdr => exact congrArg (·.cons car) (ih cdr)
      | _ => rfl

/-! ### Links -/

/-- Pairs lead from `h` through the items to `tail`, whatever is there. -/
inductive Links (heap : Heap) : Handle → List Handle → Handle → Prop where
  | done (tail : Handle) : Links heap tail [] tail
  | link {h car cdr tail : Handle} {cars : List Handle}
      (stored : heap.get h = .ok (.pair car cdr)) (rest : Links heap cdr cars tail) :
      Links heap h (car :: cars) tail

namespace Links

variable {heap heap' : Heap} {h tail : Handle} {items : List Handle}

theorem mono (links : heap.Links h items tail) (grown : heap.Extends heap') :
    heap'.Links h items tail := by
  induction links with
  | done tail => exact .done tail
  | link stored _ ih => exact .link (grown.get stored) ih

/-- Behind the items a reader goes on at the tail, in the heap as it has become. -/
theorem deliveries (links : heap.Links h items tail) {later : Heap} (grown : heap.Extends later)
    (atLimit : Listing Handle) {batches : List (List Record)}
    (asked : batches.length = items.length) (more : List (List Record)) :
    later.deliveries atLimit (batches ++ more) h =
      ((later.insertAll batches.flatten).deliveries atLimit more tail).prepend items := by
  induction links generalizing later batches with
  | done tail =>
    obtain rfl := List.eq_nil_of_length_eq_zero asked
    rfl
  | @link h car cdr tail cars stored rest ih =>
    cases batches with
    | nil => cases asked
    | cons batch batches =>
      have grown := grown.trans (extends_insertAll later batch)
      have behind := ih grown (Nat.succ.inj asked)
      rw [List.cons_append, Heap.deliveries, grown.get stored]
      dsimp only
      rw [behind, List.flatten_cons, insertAll_append]
      rfl

/-- A reader for whom the heap stands still. -/
theorem walk (links : heap.Links h items tail) (atLimit : Listing Handle) (count : Nat) :
    heap.walk atLimit (items.length + count) h = (heap.walk atLimit count tail).prepend items := by
  have none_added : (List.replicate items.length ([] : List Record)).flatten = [] :=
    List.flatten_replicate_nil
  have behind := links.deliveries (.refl heap) atLimit
    (List.length_replicate (n := items.length) (a := [])) (List.replicate count [])
  rw [List.replicate_append_replicate, none_added, deliveries_replicate] at behind
  rw [behind]
  exact congrArg (Listing.prepend items) (deliveries_replicate atLimit heap count tail)

/-- A reader who asks for no more than the items is given these. -/
theorem firstElements (links : heap.Links h items tail) {count : Nat}
    (few : count ≤ items.length) : heap.firstElements count h = ⟨items.take count, none⟩ := by
  induction links generalizing count with
  | done tail =>
    obtain rfl := Nat.le_zero.mp few
    rfl
  | link stored _ ih =>
    cases count with
    | zero => rfl
    | succ count =>
      have rest := ih (Nat.le_of_succ_le_succ few)
      rw [Heap.firstElements] at rest ⊢
      rw [Heap.walk, stored]
      dsimp only
      rw [rest]
      rfl

/-- Links in front of a chain. -/
theorem chain {cars : List Handle} {last : Handle} {record : Record}
    (links : heap.Links h items tail) (behind : heap.Chain tail cars last record) :
    heap.Chain h (items ++ cars) last record := by
  induction links with
  | done tail => exact behind
  | link stored _ ih => exact .link stored (ih behind)

end Links

/-! ### Building -/

/-- What is allocated for a list: a pair for each item, the last item first. -/
theorem chain_eq_insertAll (heap : Heap) (items : List Handle) (tail : Handle) :
    ∃ cdrs, cdrs.length = items.length ∧
      (heap.chain items tail).1 = heap.insertAll (List.zipWith .pair items.reverse cdrs) := by
  induction items with
  | nil => exact ⟨[], rfl, rfl⟩
  | cons item rest ih =>
    obtain ⟨cdrs, length, built⟩ := ih
    refine ⟨cdrs ++ [(heap.chain rest tail).2], by simp [length], ?_⟩
    have same_length : rest.reverse.length = cdrs.length := by rw [List.length_reverse, length]
    rw [List.reverse_cons, List.zipWith_append same_length, insertAll_append, ← built]
    rfl

theorem links_chain (heap : Heap) (items : List Handle) (tail : Handle) :
    (heap.chain items tail).1.Links (heap.chain items tail).2 items tail := by
  induction items with
  | nil => exact .done tail
  | cons item rest ih =>
    let shorter := heap.chain rest tail
    have stored := get_insert_self shorter.1 (.pair item shorter.2)
    exact .link stored (ih.mono (.insert shorter.1 _))

/-- A list is read as it was built. For each item a pair is allocated, and no record is changed.

Whatever the items are and whatever is added to the heap later, a walk along the list delivers the
items in their order and goes on as a walk from the tail does in the same heap: it finds the
elements of the tail, or that it ends in no list, or that it was never issued. The same holds where
the heap grows between one item and the next. Where no tail is given, the items are all there is. -/
theorem list_read_as_built (heap : Heap) (items : List Handle) (tail : Option Handle) :
    let last := tail.getD heap.nil
    let built := heap.chain items last
    heap.Extends built.1 ∧
    (∃ cdrs, cdrs.length = items.length ∧
      built.1 = heap.insertAll (List.zipWith .pair items.reverse cdrs)) ∧
    (∀ added atLimit count,
      (built.1.insertAll added).walk atLimit (items.length + count) built.2 =
        ((built.1.insertAll added).walk atLimit count last).prepend items) ∧
    (∀ added, ∀ count ≤ items.length,
      (built.1.insertAll added).firstElements count built.2 = ⟨items.take count, none⟩) ∧
    (∀ atLimit batches more, batches.length = items.length →
      built.1.deliveries atLimit (batches ++ more) built.2 =
        ((built.1.insertAll batches.flatten).deliveries atLimit more last).prepend items) ∧
    (heap.get heap.nil = .ok .nil → tail = none →
      ∀ added, (built.1.insertAll added).elements built.2 = .ok items) := by
  intro last built
  have allocated := heap.chain_eq_insertAll items last
  have extends_built : heap.Extends built.1 := by
    obtain ⟨cdrs, -, same⟩ := allocated
    exact same ▸ heap.extends_insertAll _
  have links : built.1.Links built.2 items last := heap.links_chain items last
  have later (added : List Record) : (built.1.insertAll added).Links built.2 items last :=
    links.mono (built.1.extends_insertAll added)
  refine ⟨extends_built, allocated, fun added => (later added).walk, ?_, ?_, ?_⟩
  · intro added count few
    exact (later added).firstElements few
  · intro atLimit batches more asked
    exact links.deliveries (.refl built.1) atLimit asked more
  · rintro begins rfl added
    have grown := extends_built.trans (built.1.extends_insertAll added)
    have chain : (built.1.insertAll added).Chain last [] last .nil :=
      .last (grown.get begins) nofun
    rw [elements_eq_ok_iff]
    have whole := (later added).chain chain
    rw [List.append_nil] at whole
    exact ⟨last, whole⟩

/-- The first item is no object, the tail is issued only after the list was built. -/
theorem list_read_as_built_of_early_tail :
    let heap := Heap.initial 0
    let items : List Handle := [⟨.texts, 5, 3⟩, heap.nil]
    let tail : Handle := ⟨.objects, 3, 0⟩
    let built := heap.chain items tail
    2 ≤ items.length ∧ heap.get heap.nil = .ok .nil ∧
      built.1.walk .empty 3 built.2 = ⟨items, some (.unknownHandle tail .objects)⟩ ∧
      built.1.deliveries .empty [[], [.integer 7], []] built.2 =
        ⟨items, some (.improperList tail)⟩ ∧
      (heap.chain items heap.nil).1.elements (heap.chain items heap.nil).2 = .ok items := by
  intro heap items tail built
  obtain ⟨-, -, walked, -, resumed, -⟩ := list_read_as_built heap items (some tail)
  obtain ⟨-, -, -, -, -, proper⟩ := list_read_as_built heap items none
  refine ⟨by decide, rfl, ?_, ?_, proper rfl rfl []⟩
  · exact walked [] .empty 1
  · exact resumed .empty [[], [.integer 7]] [[]] rfl

end ScopedLisp.Heap
