import ScopedLisp.Proofs.Datum.Shown
import ScopedLisp.Proofs.Datum.Spelling

/-!
# Rendering what a datum denotes

A merged datum is a tree to the printer. The object that it denotes unfolds to this tree, so it is
written as the text of the tree, which is the spelling of the datum.
-/

namespace ScopedLisp

/-- The record is the empty list or a pair, as all records along a list are. -/
def Record.isOfList : Record → Bool
  | .nil | .pair _ _ => true
  | _ => false

theorem Record.ne_of_isOfList {record : Record} (other : record.isOfList = false) :
    record ≠ .nil ∧ ∀ car cdr, record ≠ .pair car cdr := by
  constructor
  · rintro rfl
    cases other
  · rintro car cdr rfl
    cases other

namespace Datum

variable {store : Store} {h : Handle}

mutual

/-- The tree that is printed of a datum. Nothing is printed of a value of the embedding program. -/
def tree : Datum → Tree
  | .atom name => .word name
  | .integer value => .integer value
  | .boolean value => .boolean value
  | .string text => .string text
  | .character text => .character text
  | .list items => .list (treeAll items)
  | .dotted items tail => .dotted (treeAll items) (tree tail)
  | .foreign _ => .word ""

def treeAll : List Datum → List Tree
  | [] => []
  | datum :: rest => tree datum :: treeAll rest

end

/-! ### The text of the tree -/

theorem join_spell (items : List Datum) :
    String.join ((items.map fun datum => String.ofList datum.spell).map (" " ++ ·)) =
      String.ofList (spellRest items) := by
  induction items with
  | nil => rfl
  | cons datum rest ih =>
    have blank : " " ++ String.ofList datum.spell = String.ofList (' ' :: datum.spell) :=
      String.ofList_append.symm
    rw [List.map_cons, List.map_cons, String.join_cons, ih, blank, ← String.ofList_append]
    rfl

theorem intercalate_spell (items : List Datum) :
    " ".intercalate (items.map fun datum => String.ofList datum.spell) =
      String.ofList (spellItems items) := by
  cases items with
  | nil => rfl
  | cons datum rest =>
    rw [List.map_cons, Store.intercalate_cons, join_spell, ← String.ofList_append]
    rfl

theorem text_of_leaf {datum : Datum} (leaf : datum.isLeaf = true) (readable : datum.Readable) :
    datum.tree.text = .ok datum.literal := by
  cases datum with
  | list items => cases leaf
  | dotted items tail => cases leaf
  | integer value =>
    have short : value.natAbs.repr.length ≤ Text.digitLimit :=
      readable.resolve_right (by simp [bareMark])
    rw [tree, Tree.text, Record.digits, Text.Numeral.print?_of_short short]
    rfl
  | _ => rfl

mutual

/-- Nothing keeps the tree of a readable datum from having a text, for its numbers are short. -/
theorem text_tree {datum : Datum} (readable : datum.Readable) :
    datum.tree.text = .ok (String.ofList datum.spell) := by
  match datum with
  | .atom _ | .integer _ | .boolean _ | .string _ | .character _ | .foreign _ =>
    rw [text_of_leaf rfl readable, spell_of_isLeaf rfl, String.ofList_toList]
  | .list items =>
    rw [tree, Tree.text, ok_bind (textAll_tree readable), intercalate_spell]
    apply congrArg Except.ok
    apply String.toList_inj.mp
    simp only [String.toList_append, String.toList_ofList, spell]
    rfl
  | .dotted items tail =>
    rw [tree, Tree.text, ok_bind (textAll_tree readable.1), ok_bind (text_tree readable.2),
      intercalate_spell]
    apply congrArg Except.ok
    apply String.toList_inj.mp
    simp only [String.toList_append, String.toList_ofList, spell]
    rfl

theorem textAll_tree {items : List Datum} (readable : AllReadable items) :
    Tree.textAll (treeAll items) = .ok (items.map fun datum => String.ofList datum.spell) := by
  match items with
  | [] => rfl
  | datum :: rest =>
    rw [treeAll, Tree.textAll, ok_bind (text_tree readable.1), ok_bind (textAll_tree readable.2)]
    rfl

end

/-! ### The depth of the tree -/

mutual

theorem depth_tree {datum : Datum} (merged : datum.IsMerged) :
    datum.tree.depth ≤ datum.pairs + 1 := by
  match datum with
  | .atom _ | .integer _ | .boolean _ | .string _ | .character _ | .foreign _ =>
    exact Nat.le_refl 1
  | .list items => exact Nat.succ_le_succ (depthOfAll_tree merged)
  | .dotted items tail =>
    obtain ⟨some_items, all_merged, leaf⟩ := merged
    have positive : items.length ≠ 0 := fun zero => some_items (List.length_eq_zero_iff.mp zero)
    have items_deep := depthOfAll_tree all_merged
    have tail_deep := depth_tree (isMerged_of_isLeaf leaf)
    rw [tree, Tree.depth, pairs]
    omega

theorem depthOfAll_tree {items : List Datum} (merged : AllMerged items) :
    Tree.depthOfAll (treeAll items) ≤ items.length + pairsAll items := by
  match items with
  | [] => exact Nat.le_refl 0
  | datum :: rest =>
    have first := depth_tree merged.1
    have others := depthOfAll_tree merged.2
    rw [treeAll, Tree.depthOfAll, List.length_cons, pairsAll]
    omega

end

/-! ### Unfolding to the tree -/

theorem exists_record_of_isLeaf {datum : Datum} (leaf : datum.isLeaf = true)
    (shown : datum.ShownAt store h) :
    ∃ record, store.heap.get h = .ok record ∧ record.isOfList = false := by
  cases datum with
  | list items => cases leaf
  | dotted items tail => cases leaf
  | atom name =>
    obtain ⟨record, stored, rfl | rfl | ⟨symbol, rfl, known⟩⟩ := shown
    · exact ⟨_, stored, rfl⟩
    · exact ⟨_, stored, rfl⟩
    · exact ⟨_, stored, rfl⟩
  | string text =>
    obtain ⟨t, stored, known⟩ := shown
    exact ⟨_, stored, rfl⟩
  | foreign value => exact shown.elim
  | integer value | boolean value | character value => exact ⟨_, shown, rfl⟩

/-- A list that is shown is a chain of pairs whose cars show its items. -/
theorem chain_of_shownFrom {items : List Datum} {ending : Handle → Prop}
    (final : ∀ last, ending last →
      ∃ record, store.heap.get last = .ok record ∧ ∀ car cdr, record ≠ .pair car cdr)
    (shown : ShownFrom store items ending h) :
    ∃ cars last record, store.heap.Chain h cars last record ∧
      List.Forall₂ (ShownAt store) items cars ∧ ending last := by
  induction items generalizing h with
  | nil =>
    obtain ⟨record, stored, other⟩ := final h shown
    exact ⟨[], h, record, .last stored other, .nil, shown⟩
  | cons datum rest ih =>
    obtain ⟨car, cdr, stored, first, others⟩ := shown
    obtain ⟨cars, last, record, chain, all, ends⟩ := ih others
    exact ⟨car :: cars, last, record, .link stored chain, .cons first all, ends⟩

mutual

/-- An object that a merged datum denotes unfolds to the tree of the datum. -/
theorem unfoldedAt_tree {datum : Datum} (merged : datum.IsMerged) {h : Handle}
    (shown : datum.ShownAt store h) : datum.tree.UnfoldedAt store h := by
  match datum with
  | .atom _ | .boolean _ | .string _ | .character _ => exact shown
  | .integer _ => exact .inl shown
  | .foreign _ => exact shown.elim
  | .list items =>
    obtain ⟨cars, last, record, chain, all, ends⟩ := chain_of_shownFrom
      (fun last stored => ⟨_, stored, by rintro _ _ ⟨⟩⟩) shown
    cases chain.get_last.symm.trans ends
    exact ⟨cars, last, chain, unfoldedAll_tree merged all⟩
  | .dotted items tail =>
    obtain ⟨some_items, all_merged, leaf⟩ := merged
    obtain ⟨cars, last, record, chain, all, ends⟩ := chain_of_shownFrom
      (fun last shown => (exists_record_of_isLeaf leaf shown).imp fun _ met =>
        ⟨met.1, (Record.ne_of_isOfList met.2).2⟩) shown
    obtain ⟨_, stored, no_list⟩ := exists_record_of_isLeaf leaf ends
    cases chain.get_last.symm.trans stored
    have some_cars : cars ≠ [] := by
      rintro rfl
      cases all
      exact some_items rfl
    exact ⟨cars, last, record, chain, some_cars, (Record.ne_of_isOfList no_list).1,
      unfoldedAll_tree all_merged all, unfoldedAt_tree (isMerged_of_isLeaf leaf) ends⟩

theorem unfoldedAll_tree {items : List Datum} (merged : AllMerged items) {cars : List Handle}
    (shown : List.Forall₂ (ShownAt store) items cars) :
    Tree.UnfoldedAll store (treeAll items) cars := by
  match items, cars, shown with
  | [], [], .nil => trivial
  | datum :: rest, car :: cars, .cons first others =>
    exact ⟨unfoldedAt_tree merged.1 first, unfoldedAll_tree merged.2 others⟩

end

end Datum

/-- An object that a merged datum denotes is rendered as the datum is spelled. The heap need only
be as large as the datum has pairs. -/
theorem Store.render_shownAt {store : Store} {h : Handle} {datum : Datum}
    (readable : datum.Readable) (merged : datum.IsMerged) (shown : datum.ShownAt store h)
    (fits : datum.pairs ≤ store.heap.size) :
    store.render h = .ok (String.ofList datum.spell) := by
  have deep := (Datum.depth_tree merged).trans (Nat.succ_le_succ fits)
  rw [render, writeFrom_unfolded (Datum.unfoldedAt_tree merged shown) deep,
    ok_bind (Datum.text_tree readable), writeFrom, String.empty_append]

end ScopedLisp
