import ScopedLisp.Listing
import ScopedLisp.Record

/-!
# The heap

An append-only table of records. Nothing is ever removed or changed, so a handle stays good for
as long as the heap lives. The first entry is the empty list, in which every list that is built
here ends.
-/

namespace ScopedLisp

structure Heap where
  owner : Nat
  records : Array Record
  deriving DecidableEq, Repr

namespace Heap

/-- The heap that holds only the empty list. -/
def initial (owner : Nat) : Heap := ⟨owner, #[.nil]⟩

def size (heap : Heap) : Nat := heap.records.size

/-- The handle of the entry at position `i`. -/
def handleAt (heap : Heap) (i : Nat) : Handle := ⟨.objects, i, heap.owner⟩

/-- The empty list. -/
def nil (heap : Heap) : Handle := heap.handleAt 0

/-- The heap issued the handle. -/
def owns (heap : Heap) (h : Handle) : Bool :=
  (h.position? .objects heap.owner heap.size).isSome

def get (heap : Heap) (h : Handle) : Except Failure Record :=
  match h.position? .objects heap.owner heap.records.size with
  | some i => .ok heap.records[i]
  | none => .error (.unknownHandle h .objects)

/-- Appends a record. -/
def insert (heap : Heap) (record : Record) : Heap × Handle :=
  ({ heap with records := heap.records.push record }, heap.handleAt heap.size)

/-- The entries in order with their handles. -/
def entries (heap : Heap) : List (Handle × Record) :=
  heap.records.toList.zipIdx.map fun (record, i) => (heap.handleAt i, record)

/-- Builds the chain of pairs that holds the items and ends in `tail`, last pair first. -/
def chain (heap : Heap) (items : List Handle) (tail : Handle) : Heap × Handle :=
  items.foldr (fun item (heap, rest) => heap.insert (.pair item rest)) (heap, tail)

/-- The first `count` cars of the list at `h`, ending as `atLimit` says if there are more.
Nothing is looked at beyond the items asked for. -/
def walk (heap : Heap) (atLimit : Listing Handle) : Nat → Handle → Listing Handle
  | 0, _ => atLimit
  | count + 1, h =>
    match heap.get h with
    | .error failure => .failed failure
    | .ok (.pair car cdr) => (walk heap atLimit count cdr).cons car
    | .ok .nil => .empty
    | .ok _ => .failed (.improperList h)

/-- The first `count` elements of the list at `h`. -/
def firstElements (heap : Heap) (count : Nat) (h : Handle) : Listing Handle :=
  heap.walk .empty count h

/-- The elements of the list at `h`. A walk that takes more steps than there are entries is on
a loop and is given up. -/
def listing (heap : Heap) (h : Handle) : Listing Handle :=
  heap.walk (.failed .endlessWalk) (heap.size + 1) h

/-- The elements of a proper list. -/
def elements (heap : Heap) (h : Handle) : Except Failure (List Handle) := (heap.listing h).all

/-- The cars along the chain of pairs at `h` and the handle and record at its end. -/
def spine (heap : Heap) : Nat → Handle → Except Failure (List Handle × Handle × Record)
  | 0, _ => .error .endlessWalk
  | steps + 1, h => do
    match ← heap.get h with
    | .pair car cdr =>
      let (cars, last) ← spine heap steps cdr
      return (car :: cars, last)
    | record => return ([], h, record)

theorem get_eq_ok_iff {heap : Heap} {h : Handle} {record : Record} :
    heap.get h = .ok record ↔
      ∃ i : Fin heap.records.size, h = heap.handleAt i ∧ heap.records[i] = record := by
  simp only [get]
  split
  · next i found =>
    rw [Handle.position?_eq_some_iff] at found
    constructor
    · intro same
      exact ⟨i, found, Except.ok.inj same⟩
    · rintro ⟨j, rfl, rfl⟩
      have : i = j := by
        simp only [handleAt, Handle.mk.injEq, Int.natCast_inj, true_and, and_true] at found
        exact Fin.ext found.symm
      rw [this]
  · next missing =>
    constructor
    · intro same
      cases same
    · rintro ⟨j, rfl, _⟩
      have := (Handle.position?_eq_some_iff (i := j)).mpr
        (rfl : heap.handleAt j = ⟨.objects, j, heap.owner⟩)
      rw [this] at missing
      cases missing

/-- The new entry holds the new record. -/
theorem get_insert_self (heap : Heap) (record : Record) :
    (heap.insert record).1.get (heap.insert record).2 = .ok record := by
  rw [get_eq_ok_iff]
  exact ⟨⟨heap.size, by simp [insert, size]⟩, rfl, by simp [insert, size]⟩

end Heap

end ScopedLisp
