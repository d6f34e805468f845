import ScopedLisp.Proofs.Datum.Shown

/-!
# Reading data back

`Store.readBack` follows the links of the heap from a handle and returns the datum that is found
there, in which chains of pairs become lists. It is the merged form of any datum that the object was
placed for: of the spelling only how tails were written is lost.
-/

namespace ScopedLisp

namespace Store

open Datum

/-- The datum at a handle, from which no more than `depth` links are followed. -/
def readWithin (store : Store) : Nat → Handle → Option Datum
  | 0, _ => none
  | depth + 1, h =>
    match store.heap.get h with
    | .ok .nil => some (.list [])
    | .ok (.pair car cdr) => do
      let first ← readWithin store depth car
      let rest ← readWithin store depth cdr
      return following [first] rest
    | .ok (.keyword name) | .ok (.operator name) => some (.atom name)
    | .ok (.symbol name) => (store.symbols.name name).toOption.map .atom
    | .ok (.integer value) => some (.integer value)
    | .ok (.boolean value) => some (.boolean value)
    | .ok (.string text) => (store.texts.get text).toOption.map .string
    | .ok (.character text) => some (.character text)
    | _ => none

/-- The datum at a handle. No path of links that does not lead round in a circle is longer than
the heap. -/
def readBack (store : Store) (h : Handle) : Option Datum := store.readWithin store.heap.size h

end Store

namespace Datum

theorem following_nil (tail : Datum) : following [] tail = tail := by
  cases tail with
  | list more => rfl
  | dotted more last => rfl
  | _ => rfl

theorem following_cons (first : Datum) (items : List Datum) (tail : Datum) :
    following [first] (following items tail) = following (first :: items) tail := by
  cases tail with
  | list more => rfl
  | dotted more last => rfl
  | _ => cases items <;> rfl

section Reading

variable {store : Store}

mutual

/-- What a datum was placed as is read back as the merged datum. Two links are followed for each
pair at most, one to its item and one to what comes behind it. -/
theorem readWithin_of_shownAt {datum : Datum} {h : Handle} (shown : datum.ShownAt store h)
    {depth : Nat} (deep : datum.pairs < depth) :
    store.readWithin depth h = some datum.merged := by
  obtain ⟨depth, rfl⟩ := Nat.exists_eq_add_one_of_ne_zero (Nat.ne_zero_of_lt deep)
  match datum with
  | .list items =>
    have final : ∀ last, store.heap.get last = .ok .nil → ∀ {depth}, 0 < depth →
        store.readWithin depth last = some (.list []) := by
      intro last ends depth positive
      obtain ⟨depth, rfl⟩ := Nat.exists_eq_add_one_of_ne_zero (Nat.ne_zero_of_lt positive)
      rw [Store.readWithin, ends]
    rw [pairs] at deep
    rw [readWithin_of_shownFrom final shown (by omega), merged, following, List.append_nil]
  | .dotted items tail =>
    have final : ∀ last, tail.ShownAt store last → ∀ {depth}, tail.pairs < depth →
        store.readWithin depth last = some tail.merged :=
      fun last ends depth deep => readWithin_of_shownAt ends deep
    rw [pairs] at deep
    exact readWithin_of_shownFrom final shown (by omega)
  | .atom name =>
    obtain ⟨record, stored, rfl | rfl | ⟨symbol, rfl, known⟩⟩ := shown
    · rw [Store.readWithin, stored]
      rfl
    · rw [Store.readWithin, stored]
      rfl
    · rw [Store.readWithin, stored]
      dsimp only
      rw [known]
      rfl
  | .integer value | .boolean value | .character text =>
    rw [Store.readWithin, show store.heap.get h = _ from shown]
    rfl
  | .string text =>
    obtain ⟨t, stored, known⟩ := shown
    rw [Store.readWithin, stored]
    dsimp only
    rw [known]
    rfl
  | .foreign value => exact shown.elim

/-- Items in front of an end that is read back as `tail` when `further` more pairs may be met. -/
theorem readWithin_of_shownFrom {items : List Datum} {ending : Handle → Prop} {tail : Datum}
    {further : Nat} (final : ∀ last, ending last → ∀ {depth}, further < depth →
      store.readWithin depth last = some tail)
    {h : Handle} (shown : ShownFrom store items ending h) {depth : Nat}
    (deep : items.length + pairsAll items + further < depth) :
    store.readWithin depth h = some (following (mergedAll items) tail) := by
  match items with
  | [] =>
    rw [mergedAll, following_nil]
    exact final h shown (by omega)
  | datum :: rest =>
    obtain ⟨depth, rfl⟩ := Nat.exists_eq_add_one_of_ne_zero (Nat.ne_zero_of_lt deep)
    rw [List.length_cons, pairsAll] at deep
    obtain ⟨car, cdr, stored, first, others⟩ := shown
    have head := readWithin_of_shownAt first (show datum.pairs < depth by omega)
    have more := readWithin_of_shownFrom final others (show _ < depth by omega)
    rw [Store.readWithin, stored]
    dsimp only
    rw [head, more, mergedAll, ← following_cons]
    rfl

end

end Reading

end Datum

/-- What a datum was placed as is read back as the datum with its tails merged. -/
theorem Store.readBack_of_shownAt {store : Store} {datum : Datum} {h : Handle}
    (shown : datum.ShownAt store h) (fits : datum.pairs < store.heap.size) :
    store.readBack h = some datum.merged :=
  Datum.readWithin_of_shownAt shown fits

end ScopedLisp
