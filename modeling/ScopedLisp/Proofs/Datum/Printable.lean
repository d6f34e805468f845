import ScopedLisp.Datum
import ScopedLisp.Text.Blank

/-!
# Printable data

The data that have a literal of their own, and the spelling of a datum with as few dots as
possible. `Datum.merged` has this spelling and is printable if the datum is.

There is one more atom that a text may be read as and that has no literal: the mark `#\` of a
character with no character behind it. It is cut off by a blank, and it takes a parenthesis behind
it for the character that it introduces. So it is read back unless a list ends in it.
-/

namespace ScopedLisp.Datum

/-- The text is read as an atom when it stands between delimiters. -/
structure IsAtomText (name : String) : Prop where
  nonempty : name ≠ ""
  plain : ∀ c ∈ name.toList,
    Text.isBlank c = false ∧ c ∉ ['(', ')', '\x27', '\x22', ',', ';']
  not_dot : name ≠ "."
  not_integer : Text.Numeral.isLiteral name.toList = false
  not_boolean : name ∉ ["#t", "#f", "#true", "#false"]
  not_comment : ¬['#', '|'] <+: name.toList
  not_character : ¬['#', '\\'] <+: name.toList

instance (name : String) : Decidable (IsAtomText name) :=
  haveI : Decidable (∀ c ∈ name.toList,
      Text.isBlank c = false ∧ c ∉ ['(', ')', '\x27', '\x22', ',', ';']) :=
    List.decidableBAll _ _
  decidable_of_iff
    (name ≠ "" ∧
      (∀ c ∈ name.toList,
        Text.isBlank c = false ∧ c ∉ ['(', ')', '\x27', '\x22', ',', ';']) ∧
      name ≠ "." ∧ Text.Numeral.isLiteral name.toList = false ∧
      name ∉ ["#t", "#f", "#true", "#false"] ∧ ¬['#', '|'] <+: name.toList ∧
      ¬['#', '\\'] <+: name.toList)
    ⟨fun ⟨h₁, h₂, h₃, h₄, h₅, h₆, h₇⟩ => ⟨h₁, h₂, h₃, h₄, h₅, h₆, h₇⟩,
      fun ⟨h₁, h₂, h₃, h₄, h₅, h₆, h₇⟩ => ⟨h₁, h₂, h₃, h₄, h₅, h₆, h₇⟩⟩

/-- The text is one character, which is not blank unless it has a name. -/
def IsCharacterText (text : String) : Prop :=
  ∃ c, text = String.singleton c ∧
    (Text.isBlank c = false ∨ c ∈ [' ', '\n', '\t', '\r', '\x00'])

mutual

/-- Every part of the datum has a literal. -/
def Printable : Datum → Prop
  | .atom name => IsAtomText name
  | .integer value => value.natAbs.repr.length ≤ Text.digitLimit
  | .boolean _ | .string _ => True
  | .character text => IsCharacterText text
  | .list items => AllPrintable items
  | .dotted items tail => AllPrintable items ∧ Printable tail
  | .foreign _ => False

def AllPrintable : List Datum → Prop
  | [] => True
  | datum :: rest => Printable datum ∧ AllPrintable rest

end

/-- The datum is no list. -/
def isLeaf : Datum → Bool
  | .list _ | .dotted _ _ => false
  | _ => true

mutual

/-- Every part of the datum that is no list is as is said. -/
def EveryLeaf (Holds : Datum → Prop) : Datum → Prop
  | .list items => EveryLeafOfAll Holds items
  | .dotted items tail => EveryLeafOfAll Holds items ∧ EveryLeaf Holds tail
  | leaf => Holds leaf

def EveryLeafOfAll (Holds : Datum → Prop) : List Datum → Prop
  | [] => True
  | datum :: rest => EveryLeaf Holds datum ∧ EveryLeafOfAll Holds rest

end

/-- The atom that is the mark of a character by itself. -/
def bareMark : Datum := .atom "#\\"

/-- Every part of the datum has a literal or is the mark of a character by itself. -/
abbrev Readable (datum : Datum) : Prop :=
  datum.EveryLeaf fun leaf => leaf.Printable ∨ leaf = bareMark

abbrev AllReadable (items : List Datum) : Prop :=
  EveryLeafOfAll (fun leaf => leaf.Printable ∨ leaf = bareMark) items

mutual

/-- No bare mark stands in front of a closing parenthesis. `closed` tells whether there is one
behind the datum. -/
def Separated (closed : Bool) : Datum → Prop
  | .list items => AllSeparated true items
  | .dotted items tail => AllSeparated false items ∧ Separated true tail
  | leaf => closed = true → leaf ≠ bareMark

/-- `closed` tells whether there is a closing parenthesis behind the last item. -/
def AllSeparated (closed : Bool) : List Datum → Prop
  | [] => True
  | datum :: rest => Separated (closed && rest.isEmpty) datum ∧ AllSeparated closed rest

end

mutual

/-- Dots stand only between one or more items and a leaf. -/
def IsMerged : Datum → Prop
  | .list items => AllMerged items
  | .dotted items tail => items ≠ [] ∧ AllMerged items ∧ tail.isLeaf = true
  | _ => True

def AllMerged : List Datum → Prop
  | [] => True
  | datum :: rest => IsMerged datum ∧ AllMerged rest

end

/-- A leaf has no tail to merge. -/
theorem isMerged_of_isLeaf {datum : Datum} (leaf : datum.isLeaf = true) : datum.IsMerged := by
  cases datum with
  | list items => cases leaf
  | dotted items tail => cases leaf
  | _ => trivial

mutual

/-- The number of pairs that the datum takes in a heap. -/
def pairs : Datum → Nat
  | .list items => items.length + pairsAll items
  | .dotted items tail => items.length + pairsAll items + pairs tail
  | _ => 0

def pairsAll : List Datum → Nat
  | [] => 0
  | datum :: rest => pairs datum + pairsAll rest

end

mutual

/-- How deep the reading of the datum is nested. -/
def depth : Datum → Nat
  | .list items => depthAll items + 1
  | .dotted items tail => max (depthAll items) (depth tail) + 1
  | _ => 1

def depthAll : List Datum → Nat
  | [] => 0
  | datum :: rest => max (depth datum) (depthAll rest)

end

/-! ### Leaves -/

mutual

/-- What holds of all leaves there are holds of every leaf of a datum. -/
theorem everyLeaf_of_forall {Holds : Datum → Prop} (holds : ∀ leaf, Holds leaf) (datum : Datum) :
    datum.EveryLeaf Holds := by
  match datum with
  | .list items => exact everyLeafOfAll_of_forall holds items
  | .dotted items tail =>
    exact ⟨everyLeafOfAll_of_forall holds items, everyLeaf_of_forall holds tail⟩
  | .atom _ | .integer _ | .boolean _ | .string _ | .character _ | .foreign _ => exact holds _

theorem everyLeafOfAll_of_forall {Holds : Datum → Prop} (holds : ∀ leaf, Holds leaf)
    (items : List Datum) : EveryLeafOfAll Holds items := by
  match items with
  | [] => trivial
  | datum :: rest => exact ⟨everyLeaf_of_forall holds datum, everyLeafOfAll_of_forall holds rest⟩

end

mutual

/-- What follows from a literal holds of every leaf of a printable datum. -/
theorem Printable.everyLeaf {Holds : Datum → Prop}
    (holds : ∀ leaf : Datum, leaf.isLeaf = true → leaf.Printable → Holds leaf) {datum : Datum}
    (printable : datum.Printable) : datum.EveryLeaf Holds := by
  match datum with
  | .list items => exact AllPrintable.everyLeaf holds printable
  | .dotted items tail =>
    exact ⟨AllPrintable.everyLeaf holds printable.1, Printable.everyLeaf holds printable.2⟩
  | .atom _ | .integer _ | .boolean _ | .string _ | .character _ | .foreign _ =>
    exact holds _ rfl printable

theorem AllPrintable.everyLeaf {Holds : Datum → Prop}
    (holds : ∀ leaf : Datum, leaf.isLeaf = true → leaf.Printable → Holds leaf)
    {items : List Datum} (printable : AllPrintable items) : EveryLeafOfAll Holds items := by
  match items with
  | [] => trivial
  | datum :: rest =>
    exact ⟨Printable.everyLeaf holds printable.1, AllPrintable.everyLeaf holds printable.2⟩

end

/-- What can be printed for rereading can be read. -/
theorem Printable.readable {datum : Datum} (printable : datum.Printable) : datum.Readable :=
  printable.everyLeaf fun _ _ literal => .inl literal

/-- The mark of a character alone is not printable: its text begins a character literal. -/
theorem not_printable_bareMark : ¬bareMark.Printable :=
  fun atom => atom.not_character (List.prefix_refl _)

/-- A printable datum has no bare character mark anywhere in it. -/
theorem Printable.markless {datum : Datum} (printable : datum.Printable) :
    datum.EveryLeaf (· ≠ bareMark) :=
  printable.everyLeaf fun leaf _ literal (same : leaf = bareMark) =>
    not_printable_bareMark (same ▸ literal)

mutual

/-- A datum without bare marks is separated whatever stands behind it. -/
theorem EveryLeaf.separated {datum : Datum} (markless : datum.EveryLeaf (· ≠ bareMark))
    (closed : Bool) : datum.Separated closed := by
  match datum with
  | .list items => exact EveryLeafOfAll.separated markless true
  | .dotted items tail =>
    exact ⟨EveryLeafOfAll.separated markless.1 false, EveryLeaf.separated markless.2 true⟩
  | .atom _ | .integer _ | .boolean _ | .string _ | .character _ | .foreign _ =>
    exact fun _ => markless

theorem EveryLeafOfAll.separated {items : List Datum}
    (markless : EveryLeafOfAll (· ≠ bareMark) items) (closed : Bool) :
    AllSeparated closed items := by
  match items with
  | [] => trivial
  | datum :: rest =>
    exact ⟨EveryLeaf.separated markless.1 _, EveryLeafOfAll.separated markless.2 closed⟩

end

/-! ### Merging tails -/

theorem everyLeafOfAll_append {Holds : Datum → Prop} {items more : List Datum}
    (first : EveryLeafOfAll Holds items) (second : EveryLeafOfAll Holds more) :
    EveryLeafOfAll Holds (items ++ more) := by
  induction items with
  | nil => exact second
  | cons datum rest ih => exact ⟨first.1, ih first.2⟩

theorem allMerged_append {items more : List Datum} (first : AllMerged items)
    (second : AllMerged more) : AllMerged (items ++ more) := by
  induction items with
  | nil => exact second
  | cons datum rest ih => exact ⟨first.1, ih first.2⟩

theorem pairsAll_append (items more : List Datum) :
    pairsAll (items ++ more) = pairsAll items + pairsAll more := by
  induction items with
  | nil => exact (Nat.zero_add _).symm
  | cons datum rest ih =>
    rw [List.cons_append, pairsAll, pairsAll, ih]
    omega

/-- Items in front of a leaf. -/
theorem following_of_isLeaf {items : List Datum} {tail : Datum} (leaf : tail.isLeaf = true) :
    following items tail = if items.isEmpty then tail else .dotted items tail := by
  cases tail with
  | list more => cases leaf
  | dotted more last => cases leaf
  | _ => rfl

section Following

variable {items : List Datum} {tail : Datum}

/-- Merging a tail into its items keeps the leaves. -/
theorem everyLeaf_following {Holds : Datum → Prop} (first : EveryLeafOfAll Holds items)
    (second : tail.EveryLeaf Holds) : (following items tail).EveryLeaf Holds := by
  cases tail with
  | list more => exact everyLeafOfAll_append first second
  | dotted more last => exact ⟨everyLeafOfAll_append first second.1, second.2⟩
  | _ =>
    rw [following_of_isLeaf rfl]
    split
    · exact second
    · exact ⟨first, second⟩

theorem isMerged_following (first : AllMerged items) (second : tail.IsMerged) :
    (following items tail).IsMerged := by
  cases tail with
  | list more => exact allMerged_append first second
  | dotted more last =>
    obtain ⟨some_more, all, leaf⟩ := second
    exact ⟨List.append_ne_nil_of_right_ne_nil items some_more, allMerged_append first all, leaf⟩
  | _ =>
    rw [following_of_isLeaf rfl]
    split
    · exact second
    · next some_items => exact ⟨fun none => some_items (by rw [none]; rfl), first, rfl⟩

/-- Merging a tail does not change the number of pairs that a list takes. -/
theorem pairs_following :
    (following items tail).pairs = items.length + pairsAll items + tail.pairs := by
  cases tail with
  | list more =>
    rw [following, pairs, pairs, pairsAll_append, List.length_append]
    omega
  | dotted more last =>
    rw [following, pairs, pairs, pairsAll_append, List.length_append]
    omega
  | _ =>
    rw [following_of_isLeaf rfl]
    split
    · next none =>
      rw [List.isEmpty_iff.mp none]
      rfl
    · rfl

end Following

mutual

/-- A merged datum has the leaves it had. -/
theorem EveryLeaf.merged {Holds : Datum → Prop} {datum : Datum} (holds : datum.EveryLeaf Holds) :
    datum.merged.EveryLeaf Holds := by
  match datum with
  | .list items => exact EveryLeafOfAll.merged holds
  | .dotted items tail =>
    exact everyLeaf_following (EveryLeafOfAll.merged holds.1) (EveryLeaf.merged holds.2)
  | .atom _ | .integer _ | .boolean _ | .string _ | .character _ | .foreign _ => exact holds

theorem EveryLeafOfAll.merged {Holds : Datum → Prop} {items : List Datum}
    (holds : EveryLeafOfAll Holds items) : EveryLeafOfAll Holds (mergedAll items) := by
  match items with
  | [] => trivial
  | datum :: rest => exact ⟨EveryLeaf.merged holds.1, EveryLeafOfAll.merged holds.2⟩

end

mutual

/-- Merging leaves no list behind a dot, at any depth. -/
theorem isMerged_merged (datum : Datum) : datum.merged.IsMerged := by
  match datum with
  | .list items => exact allMerged_merged items
  | .dotted items tail => exact isMerged_following (allMerged_merged items) (isMerged_merged tail)
  | .atom _ | .integer _ | .boolean _ | .string _ | .character _ | .foreign _ => trivial

theorem allMerged_merged (items : List Datum) : AllMerged (mergedAll items) := by
  match items with
  | [] => trivial
  | datum :: rest => exact ⟨isMerged_merged datum, allMerged_merged rest⟩

end

theorem length_mergedAll (items : List Datum) : (mergedAll items).length = items.length := by
  induction items with
  | nil => rfl
  | cons datum rest ih => rw [mergedAll, List.length_cons, ih, List.length_cons]

mutual

/-- A datum and its merged form take the same number of pairs. -/
theorem pairs_merged (datum : Datum) : datum.merged.pairs = datum.pairs := by
  match datum with
  | .list items => rw [merged, pairs, pairs, length_mergedAll, pairsAll_merged items]
  | .dotted items tail =>
    rw [merged, pairs_following, length_mergedAll, pairsAll_merged items, pairs_merged tail, pairs]
  | .atom _ | .integer _ | .boolean _ | .string _ | .character _ | .foreign _ => rfl

theorem pairsAll_merged (items : List Datum) : pairsAll (mergedAll items) = pairsAll items := by
  match items with
  | [] => rfl
  | datum :: rest => rw [mergedAll, pairsAll, pairsAll, pairs_merged datum, pairsAll_merged rest]

end

end ScopedLisp.Datum
