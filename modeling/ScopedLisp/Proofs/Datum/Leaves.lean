import ScopedLisp.Proofs.Datum.Printable

/-!
# The leaves of a datum

The parts of a datum that are no lists, from left to right. They decide which names and texts the
tables of a session receive and in which order, and whether the datum is one throughout.
-/

namespace ScopedLisp.Datum

mutual

/-- The parts of the datum that are no lists, in the order in which they occur. -/
def leaves : Datum → List Datum
  | .list items => leavesOfAll items
  | .dotted items tail => leavesOfAll items ++ leaves tail
  | leaf => [leaf]

def leavesOfAll : List Datum → List Datum
  | [] => []
  | datum :: rest => leaves datum ++ leavesOfAll rest

end

theorem leaves_of_isLeaf {datum : Datum} (leaf : datum.isLeaf = true) :
    datum.leaves = [datum] := by
  cases datum with
  | list items => cases leaf
  | dotted items tail => cases leaf
  | _ => rfl

/-- The name of an atom. -/
def atomName? : Datum → Option String
  | .atom name => some name
  | _ => none

/-- The content of a string. -/
def stringText? : Datum → Option String
  | .string text => some text
  | _ => none

/-- The value of the embedding program that stands where a datum was expected. -/
def foreignValue? : Datum → Option HostValue
  | .foreign value => some value
  | _ => none

/-- The first part that is no datum. -/
def foreign? (datum : Datum) : Option HostValue := datum.leaves.findSome? foreignValue?

/-- Nothing but data occurs in the datum. -/
abbrev Native (datum : Datum) : Prop := ∀ leaf ∈ datum.leaves, leaf.foreignValue? = none

abbrev AllNative (items : List Datum) : Prop :=
  ∀ leaf ∈ leavesOfAll items, leaf.foreignValue? = none

theorem foreign?_eq_none_iff {datum : Datum} : datum.foreign? = none ↔ datum.Native :=
  List.findSome?_eq_none_iff

mutual

theorem everyLeaf_iff_leaves {Holds : Datum → Prop} (datum : Datum) :
    datum.EveryLeaf Holds ↔ ∀ leaf ∈ datum.leaves, Holds leaf := by
  match datum with
  | .list items => exact everyLeafOfAll_iff_leaves items
  | .dotted items tail =>
    rw [leaves, List.forall_mem_append, ← everyLeafOfAll_iff_leaves items,
      ← everyLeaf_iff_leaves tail]
    rfl
  | .atom _ | .integer _ | .boolean _ | .string _ | .character _ | .foreign _ =>
    rw [leaves_of_isLeaf rfl, List.forall_mem_singleton]
    rfl

theorem everyLeafOfAll_iff_leaves {Holds : Datum → Prop} (items : List Datum) :
    EveryLeafOfAll Holds items ↔ ∀ leaf ∈ leavesOfAll items, Holds leaf := by
  match items with
  | [] => exact ⟨fun _ => List.forall_mem_nil _, fun _ => trivial⟩
  | datum :: rest =>
    rw [leavesOfAll, List.forall_mem_append, ← everyLeaf_iff_leaves datum,
      ← everyLeafOfAll_iff_leaves rest]
    rfl

end

/-- A value of the embedding program cannot be written as text that is read again. -/
theorem Readable.native {datum : Datum} (readable : datum.Readable) : datum.Native := by
  intro leaf member
  have literal := (everyLeaf_iff_leaves datum).mp readable leaf member
  cases leaf with
  | foreign value => exact (literal.resolve_right nofun).elim
  | _ => rfl

end ScopedLisp.Datum
