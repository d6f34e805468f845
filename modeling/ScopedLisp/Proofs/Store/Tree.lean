import ScopedLisp.Proofs.Store.Grounded
import ScopedLisp.Proofs.Store.Writing

/-!
# Printing as a tree

An object that is printed is seen as a tree: a chain of pairs as the list of its items and its end,
a procedure as its parameters, and an object that is reached in several ways as often as it is
reached. The text of a tree is defined by recursion on it. The printer, which keeps its work in a
list, writes the text of the tree that an object unfolds to, and in a grounded store every object
unfolds to one.
-/

namespace ScopedLisp

/-- What a word of this text may stand for. -/
def Record.IsNamed (store : Store) (name : String) (record : Record) : Prop :=
  record = .keyword name ∨ record = .operator name ∨
    ∃ symbol, record = .symbol symbol ∧ store.symbols.name symbol = .ok name

/-- An object as far as it is printed. -/
inductive Tree where
  | word (name : String)
  | integer (value : Int)
  | boolean (value : Bool)
  | string (text : String)
  | character (text : String)
  | list (items : List Tree)
  /-- Items and an end that is not the empty list. -/
  | dotted (items : List Tree) (tail : Tree)
  | procedure (params : Tree)

namespace Tree

mutual

/-- The text of a tree, by recursion on it. -/
def text : Tree → Except Failure String
  | .word name => .ok name
  | .integer value => Record.digits value
  | .boolean value => .ok (if value then "#t" else "#f")
  | .string content => .ok (Literal.ofText content)
  | .character name => .ok ("#\\" ++ Literal.characterName name)
  | .list items => do
    let shown ← textAll items
    return "(" ++ " ".intercalate shown ++ ")"
  | .dotted items tail => do
    let shown ← textAll items
    let last ← text tail
    return "(" ++ " ".intercalate shown ++ " . " ++ last ++ ")"
  | .procedure params => do
    let shown ← text params
    return "#<procedure " ++ shown ++ ">"

def textAll : List Tree → Except Failure (List String)
  | [] => .ok []
  | tree :: rest => do
    let first ← text tree
    let others ← textAll rest
    return first :: others

end

mutual

/-- The integers that occur in a tree. -/
def integers : Tree → List Int
  | .integer value => [value]
  | .list items => integersOfAll items
  | .dotted items tail => integersOfAll items ++ integers tail
  | .procedure params => integers params
  | _ => []

def integersOfAll : List Tree → List Int
  | [] => []
  | tree :: rest => integers tree ++ integersOfAll rest

end

mutual

/-- The number of objects within one another. -/
def depth : Tree → Nat
  | .list items => depthOfAll items + 1
  | .dotted items tail => max (depthOfAll items) (depth tail) + 1
  | .procedure params => depth params + 1
  | _ => 1

def depthOfAll : List Tree → Nat
  | [] => 0
  | tree :: rest => max (depth tree) (depthOfAll rest)

end

/-- There is no tree within the tree. -/
def isLeaf : Tree → Bool
  | .list _ | .dotted _ _ | .procedure _ => false
  | _ => true

mutual

/-- The object at the handle looks like the tree. -/
def UnfoldedAt (store : Store) : Tree → Handle → Prop
  | .word name, h => ∃ record, store.heap.get h = .ok record ∧ record.IsNamed store name
  | .integer value, h =>
    store.heap.get h = .ok (.integer value) ∨ store.heap.get h = .ok (.foreign value)
  | .boolean value, h => store.heap.get h = .ok (.boolean value)
  | .string text, h => ∃ t, store.heap.get h = .ok (.string t) ∧ store.texts.get t = .ok text
  | .character text, h => store.heap.get h = .ok (.character text)
  | .list items, h => ∃ cars last, store.heap.Chain h cars last .nil ∧ UnfoldedAll store items cars
  | .dotted items tail, h => ∃ cars last record, store.heap.Chain h cars last record ∧
      cars ≠ [] ∧ record ≠ .nil ∧ UnfoldedAll store items cars ∧ UnfoldedAt store tail last
  | .procedure shown, h => ∃ params body scope,
      store.heap.get h = .ok (.procedure params body scope) ∧ UnfoldedAt store shown params

/-- The objects look like the trees, one for one. -/
def UnfoldedAll (store : Store) : List Tree → List Handle → Prop
  | [], [] => True
  | tree :: rest, h :: handles => UnfoldedAt store tree h ∧ UnfoldedAll store rest handles
  | _, _ => False

end

/-! ### Numbers of too many digits -/

/-- The result is a failure just when one of the numbers has too many digits, and then of that
cause. -/
def Converts {α : Type} (numbers : List Int) (result : Except Failure α) : Prop :=
  ∀ failure, result = .error failure ↔ failure = .tooManyDigits ∧
    ∃ number ∈ numbers, Text.digitLimit < number.natAbs.repr.length

namespace Converts

variable {α β : Type} {numbers others : List Int}

theorem ok (value : α) : Converts [] (.ok value) := by
  intro failure
  constructor
  · rintro ⟨⟩
  · rintro ⟨-, _, ⟨⟩, -⟩

theorem digits (value : Int) : Converts [value] (Record.digits value) := by
  intro failure
  simp only [List.mem_singleton, exists_eq_left]
  by_cases short : value.natAbs.repr.length ≤ Text.digitLimit
  · rw [Record.digits, Text.Numeral.print?, if_neg (Nat.not_lt.mpr short)]
    exact ⟨nofun, fun long => absurd short (Nat.not_le.mpr long.2)⟩
  · have long := Nat.lt_of_not_le short
    rw [Record.digits, Text.Numeral.print?, if_pos long]
    exact ⟨fun same => ⟨(Except.error.inj same).symm, long⟩, fun same => congrArg _ same.1.symm⟩

theorem bind {first : Except Failure α} {next : α → Except Failure β}
    (head : Converts numbers first) (tail : ∀ value, Converts others (next value)) :
    Converts (numbers ++ others) (first >>= next) := by
  intro failure
  simp only [List.mem_append, or_and_right, exists_or]
  cases result : first with
  | error cause =>
    obtain ⟨rfl, long⟩ := (head cause).mp result
    exact ⟨fun same => ⟨(Except.error.inj same).symm, .inl long⟩,
      fun same => congrArg _ same.1.symm⟩
  | ok value =>
    have short : ¬∃ number ∈ numbers, Text.digitLimit < number.natAbs.repr.length := by
      intro long
      cases result.symm.trans ((head .tooManyDigits).mpr ⟨rfl, long⟩)
    rw [or_iff_right short]
    exact tail value failure

theorem map {first : Except Failure α} (head : Converts numbers first) (f : α → β) :
    Converts numbers (first >>= fun value => .ok (f value)) := by
  have mapped := head.bind fun value => ok (f value)
  rw [List.append_nil] at mapped
  exact mapped

end Converts

mutual

/-- Nothing but a number of too many digits keeps a tree from having a text. -/
theorem converts_text (tree : Tree) : Converts tree.integers tree.text := by
  match tree with
  | .word _ | .boolean _ | .string _ | .character _ => exact .ok _
  | .integer value => exact .digits value
  | .list items => exact (converts_textAll items).map _
  | .dotted items tail =>
    exact (converts_textAll items).bind fun shown => (converts_text tail).map _
  | .procedure params => exact (converts_text params).map _

theorem converts_textAll (trees : List Tree) : Converts (integersOfAll trees) (textAll trees) := by
  match trees with
  | [] => exact .ok []
  | tree :: rest => exact (converts_text tree).bind fun first => (converts_textAll rest).map _

end

end Tree

/-! ### Writing a tree -/

namespace Store

open ScopedLisp.Tree

variable {store : Store}

/-- Texts with blanks between them. -/
theorem intercalate_cons (first : String) (others : List String) :
    " ".intercalate (first :: others) = first ++ String.join (others.map (" " ++ ·)) := by
  induction others generalizing first with
  | nil => rw [String.intercalate_singleton, List.map_nil, String.join_nil, String.append_empty]
  | cons second rest ih =>
    rw [String.intercalate_cons_cons, ih, List.map_cons, String.join_cons, String.append_assoc,
      String.append_assoc]

theorem layout_of_chain {h car last : Handle} {cars : List Handle} {record : Record}
    (chain : store.heap.Chain h (car :: cars) last record) :
    store.layout h = .ok (.list car cars (if record = .nil then none else some last)) := by
  cases chain with
  | link stored rest =>
    have spine := rest.spine (Nat.lt_succ_of_lt rest.length_lt_size)
    exact (ok_bind stored).trans (ok_bind spine)

theorem layout_of_leaf {tree : Tree} (leaf : tree.isLeaf = true) {h : Handle}
    (unfolded : tree.UnfoldedAt store h) :
    store.layout h = tree.text >>= fun shown => .ok (.plain shown) := by
  cases tree with
  | list items => cases leaf
  | dotted items tail => cases leaf
  | procedure params => cases leaf
  | word name =>
    obtain ⟨record, stored, rfl | rfl | ⟨symbol, rfl, known⟩⟩ := unfolded
    · exact ok_bind stored
    · exact ok_bind stored
    · exact (ok_bind stored).trans (ok_bind known)
  | integer value => exact unfolded.elim ok_bind ok_bind
  | boolean value => exact ok_bind unfolded
  | string content =>
    obtain ⟨t, stored, known⟩ := unfolded
    exact (ok_bind stored).trans (ok_bind known)
  | character name => exact ok_bind unfolded

theorem writeFrom_leaf {tree : Tree} (leaf : tree.isLeaf = true) {h : Handle}
    (unfolded : tree.UnfoldedAt store h) (room : Nat) (rest : List Piece) (written : String) :
    store.writeFrom (.object (room + 1) h :: rest) written =
      tree.text >>= fun shown => store.writeFrom rest (written ++ shown) := by
  rw [writeFrom_eq, layout_of_leaf leaf unfolded]
  cases tree.text with
  | ok shown => exact writeFrom_plain shown rest written
  | error failure => rfl

theorem render_leaf {tree : Tree} (leaf : tree.isLeaf = true) {h : Handle}
    (unfolded : tree.UnfoldedAt store h) : store.render h = tree.text := by
  rw [render, writeFrom_leaf leaf unfolded]
  cases tree.text with
  | ok shown => rw [ok_bind rfl, writeFrom, String.empty_append]
  | error failure => rfl

theorem eq_nil_of_unfoldedAll {trees : List Tree} (unfolded : UnfoldedAll store trees []) :
    trees = [] := by
  cases trees with
  | nil => rfl
  | cons tree rest => exact unfolded.elim

mutual

/-- The printer writes the text of the tree that an object unfolds to, if it has room for the depth
of the tree, and goes on with what is left. -/
theorem writeFrom_unfolded {tree : Tree} {h : Handle} (unfolded : tree.UnfoldedAt store h)
    {room : Nat} (deep : tree.depth ≤ room) (rest : List Piece) (written : String) :
    store.writeFrom (.object room h :: rest) written =
      tree.text >>= fun shown => store.writeFrom rest (written ++ shown) := by
  have positive : 0 < tree.depth := by cases tree <;> exact Nat.succ_pos _
  obtain ⟨room, rfl⟩ :=
    Nat.exists_eq_add_one_of_ne_zero (Nat.ne_zero_of_lt (positive.trans_le deep))
  match tree with
  | .word _ | .integer _ | .boolean _ | .string _ | .character _ =>
    exact writeFrom_leaf rfl unfolded room rest written
  | .procedure shown =>
    obtain ⟨params, body, scope, stored, inner⟩ := unfolded
    rw [depth] at deep
    have found : store.layout h = .ok (.procedure params) := ok_bind stored
    have pieces : (Layout.procedure params).pieces room ++ rest =
        .plain "#<procedure " :: .object room params :: .plain ">" :: rest := rfl
    rw [writeFrom_object found, pieces, writeFrom_plain,
      writeFrom_unfolded inner (Nat.le_of_succ_le_succ deep), text]
    simp only [bind_assoc, pure_bind, writeFrom_plain, String.append_assoc]
  | .list items =>
    obtain ⟨cars, last, chain, all⟩ := unfolded
    rw [depth] at deep
    cases cars with
    | nil =>
      obtain rfl := eq_nil_of_unfoldedAll all
      cases chain with
      | last stored _ =>
        have found : store.layout h = .ok (.plain "()") := ok_bind stored
        rw [writeFrom_object found, text, textAll]
        exact writeFrom_plain _ rest written
    | cons car cars =>
      have found := layout_of_chain chain
      rw [if_pos rfl] at found
      rw [writeFrom_object found, pieces_list, writeFrom_plain,
        writeFrom_unfoldedItems all (Nat.le_of_succ_le_succ deep), text]
      simp only [bind_assoc, pure_bind, List.nil_append, writeFrom_plain, String.append_assoc]
  | .dotted items tail =>
    obtain ⟨cars, last, record, chain, some_items, not_nil, all, ends⟩ := unfolded
    rw [depth] at deep
    obtain ⟨car, cars, rfl⟩ := List.exists_cons_of_ne_nil some_items
    have found := layout_of_chain chain
    rw [if_neg not_nil] at found
    rw [writeFrom_object found, pieces_list, writeFrom_plain,
      writeFrom_unfoldedItems all (by omega), text, bind_assoc]
    congr 1
    funext shown
    dsimp only
    rw [List.cons_append, List.cons_append, writeFrom_plain, writeFrom_unfolded ends (by omega)]
    simp only [bind_assoc, pure_bind, List.nil_append, writeFrom_plain, String.append_assoc]

/-- The items of a list. -/
theorem writeFrom_unfoldedItems {trees : List Tree} {car : Handle} {cars : List Handle}
    (unfolded : UnfoldedAll store trees (car :: cars)) {room : Nat}
    (deep : depthOfAll trees ≤ room) (rest : List Piece) (written : String) :
    store.writeFrom
        (.object room car :: (cars.flatMap (fun item => [.plain " ", .object room item]) ++ rest))
        written =
      textAll trees >>= fun shown => store.writeFrom rest (written ++ " ".intercalate shown) := by
  match trees, unfolded with
  | first :: others, ⟨head, tail⟩ =>
    rw [depthOfAll] at deep
    rw [writeFrom_unfolded head (by omega), textAll, bind_assoc]
    congr 1
    funext shown
    rw [writeFrom_unfoldedRest tail (by omega), bind_assoc]
    simp only [pure_bind, intercalate_cons, String.append_assoc]

theorem writeFrom_unfoldedRest {trees : List Tree} {cars : List Handle}
    (unfolded : UnfoldedAll store trees cars) {room : Nat} (deep : depthOfAll trees ≤ room)
    (rest : List Piece) (written : String) :
    store.writeFrom (cars.flatMap (fun item => [.plain " ", .object room item]) ++ rest) written =
      textAll trees >>= fun shown =>
        store.writeFrom rest (written ++ String.join (shown.map (" " ++ ·))) := by
  match trees, cars, unfolded with
  | [], [], _ => rw [textAll, ok_bind rfl, List.map_nil, String.join_nil, String.append_empty]; rfl
  | first :: others, car :: cars, ⟨head, tail⟩ =>
    rw [depthOfAll] at deep
    refine (writeFrom_plain _ _ _).trans ?_
    refine (writeFrom_unfolded head (by omega) _ _).trans ?_
    rw [textAll, bind_assoc]
    congr 1
    funext shown
    refine (writeFrom_unfoldedRest tail (by omega) _ _).trans ?_
    simp only [bind_assoc, pure_bind, List.map_cons, String.join_cons, String.append_assoc]

end

/-! ### Grounded stores -/

namespace Grounded

variable {h : Handle}

mutual

/-- An object unfolds to a tree that is no deeper than the object is old. -/
theorem depth_le (grounded : store.Grounded) {tree : Tree} {h : Handle}
    (unfolded : tree.UnfoldedAt store h) {limit : Nat}
    (issued : h.IssuedBefore .objects store.heap.owner limit) : tree.depth ≤ limit := by
  have positive : limit ≠ 0 := Nat.ne_zero_of_lt issued.choose_spec.1
  obtain ⟨limit, rfl⟩ := Nat.exists_eq_add_one_of_ne_zero positive
  match tree with
  | .word _ | .integer _ | .boolean _ | .string _ | .character _ => exact Nat.succ_pos limit
  | .procedure shown =>
    obtain ⟨params, body, scope, stored, inner⟩ := unfolded
    obtain ⟨i, older, params_issued, -⟩ := grounded.points_of_issued issued stored
    exact Nat.succ_le_succ (grounded.depth_le inner (params_issued.mono older))
  | .list items =>
    obtain ⟨cars, last, chain, all⟩ := unfolded
    have cars_issued : ∀ car ∈ cars, car.IssuedBefore .objects store.heap.owner limit := by
      intro car member
      have some_items := List.ne_nil_of_mem member
      exact (grounded.issued_of_chain chain issued some_items).1 car member
    exact Nat.succ_le_succ (grounded.depthOfAll_le all cars_issued)
  | .dotted items tail =>
    obtain ⟨cars, last, record, chain, some_items, -, all, ends⟩ := unfolded
    obtain ⟨cars_issued, last_issued⟩ := grounded.issued_of_chain chain issued some_items
    have items_deep := grounded.depthOfAll_le all cars_issued
    exact Nat.succ_le_succ (Nat.max_le.mpr ⟨items_deep, grounded.depth_le ends last_issued⟩)

theorem depthOfAll_le (grounded : store.Grounded) {trees : List Tree} {handles : List Handle}
    (unfolded : UnfoldedAll store trees handles) {limit : Nat}
    (issued : ∀ h ∈ handles, h.IssuedBefore .objects store.heap.owner limit) :
    depthOfAll trees ≤ limit := by
  match trees, handles, unfolded with
  | [], [], _ => exact Nat.zero_le limit
  | tree :: rest, h :: others, ⟨head, tail⟩ =>
    obtain ⟨first, others⟩ := List.forall_mem_cons.mp issued
    exact Nat.max_le.mpr ⟨grounded.depth_le head first, grounded.depthOfAll_le tail others⟩

end

theorem exists_unfoldedAll {handles : List Handle}
    (each : ∀ h ∈ handles, ∃ tree : Tree, tree.UnfoldedAt store h) :
    ∃ trees, UnfoldedAll store trees handles := by
  induction handles with
  | nil => exact ⟨[], trivial⟩
  | cons h rest ih =>
    obtain ⟨⟨tree, head⟩, others⟩ := List.forall_mem_cons.mp each
    obtain ⟨trees, tail⟩ := ih others
    exact ⟨tree :: trees, head, tail⟩

/-- Every object unfolds to a tree. The induction is on its place, for what it leads to is older. -/
theorem exists_tree (grounded : store.Grounded) (held : store.Holds h) :
    ∃ tree : Tree, tree.UnfoldedAt store h := by
  obtain ⟨i, below, rfl⟩ := held
  induction i using Nat.strongRecOn with
  | ind i ih =>
    have held : store.Holds (store.heap.handleAt i) := ⟨i, below, rfl⟩
    have issued : (store.heap.handleAt i).IssuedBefore .objects store.heap.owner (i + 1) :=
      ⟨i, Nat.lt_succ_self i, rfl⟩
    have older {h : Handle} (before : h.IssuedBefore .objects store.heap.owner i) :
        ∃ tree : Tree, tree.UnfoldedAt store h := by
      obtain ⟨j, smaller, rfl⟩ := before
      exact ih j smaller (Nat.lt_trans smaller below)
    obtain ⟨record, stored⟩ := Heap.get_of_issued held
    have points := grounded.points (Heap.get_handleAt_iff.mp stored)
    cases record with
    | nil => exact ⟨.list [], [], _, .last stored nofun, trivial⟩
    | pair car cdr =>
      -- the whole chain makes one list; its items and its end are older than its first pair
      obtain ⟨cars, last, record, chain⟩ := grounded.exists_chain held
      have some_items : cars ≠ [] := by
        rintro rfl
        cases chain with
        | last again final =>
          cases stored.symm.trans again
          exact final car cdr rfl
      obtain ⟨cars_issued, last_issued⟩ := grounded.issued_of_chain chain issued some_items
      obtain ⟨items, all⟩ := exists_unfoldedAll fun car member => older (cars_issued car member)
      obtain ⟨tail, ends⟩ := older last_issued
      by_cases ending : record = .nil
      · exact ⟨.list items, cars, last, ending ▸ chain, all⟩
      · exact ⟨.dotted items tail, cars, last, record, chain, some_items, ending, all, ends⟩
    | procedure params body scope =>
      obtain ⟨shown, inner⟩ := older points.1
      exact ⟨.procedure shown, params, body, scope, stored, inner⟩
    | keyword name => exact ⟨.word name, _, stored, .inl rfl⟩
    | operator name => exact ⟨.word name, _, stored, .inr (.inl rfl)⟩
    | symbol symbol =>
      obtain ⟨name, known⟩ := name_eq store points
      exact ⟨.word name, _, stored, .inr (.inr ⟨symbol, rfl, known⟩)⟩
    | integer value => exact ⟨.integer value, .inl stored⟩
    | foreign value => exact ⟨.integer value, .inr stored⟩
    | boolean value => exact ⟨.boolean value, stored⟩
    | string t =>
      obtain ⟨text, known⟩ := text_eq store points
      exact ⟨.string text, t, stored, known⟩
    | character text => exact ⟨.character text, stored⟩

theorem writeFrom_unfolded (grounded : store.Grounded) {tree : Tree}
    (unfolded : tree.UnfoldedAt store h) (held : store.Holds h) {room : Nat}
    (enough : store.heap.size ≤ room) : store.writeFrom [.object room h] "" = tree.text := by
  have deep := (grounded.depth_le unfolded held).trans enough
  rw [Store.writeFrom_unfolded unfolded deep]
  cases tree.text with
  | ok shown => rw [ok_bind rfl, String.empty_append, writeFrom]
  | error failure => rfl

theorem render_unfolded (grounded : store.Grounded) {tree : Tree}
    (unfolded : tree.UnfoldedAt store h) (held : store.Holds h) : store.render h = tree.text :=
  grounded.writeFrom_unfolded unfolded held (Nat.le_succ _)

end Grounded

/-- Every object of a grounded store unfolds to a tree, and the printer, which works through a list
of texts and objects, comes to an end and has written the text of the tree. There is no such text
just when an integer in the tree has too many digits. -/
theorem render_by_recursion (grounded : store.Grounded) {h : Handle} (held : store.Holds h) :
    (∃ tree : Tree, tree.UnfoldedAt store h) ∧ ∀ tree : Tree, tree.UnfoldedAt store h →
      store.render h = tree.text ∧ store.Writes [.inr h] "" tree.text ∧
      (∀ room, store.heap.size ≤ room → store.writeFrom [.object room h] "" = tree.text) ∧
      ∀ failure, tree.text = .error failure ↔ failure = .tooManyDigits ∧
        ∃ number ∈ tree.integers, Text.digitLimit < number.natAbs.repr.length := by
  refine ⟨grounded.exists_tree held, fun tree unfolded => ?_⟩
  have rendered := grounded.render_unfolded unfolded held
  have digits := tree.converts_text
  refine ⟨rendered, ?_, fun room => grounded.writeFrom_unfolded unfolded held, digits⟩
  have ends : store.render h ≠ .error .endlessWalk := by
    intro endless
    cases ((digits .endlessWalk).mp (rendered.symm.trans endless)).1
  rw [← rendered]
  exact writes_of_writeFrom ends

/-- A list that is reached twice, once as the parameters of a procedure, and a dotted end. -/
theorem render_by_recursion_of_shared :
    let store : Store := { Store.initial 0 with heap := ⟨0, #[.nil, .integer 7,
      .pair ⟨.objects, 1, 0⟩ ⟨.objects, 0, 0⟩,
      .procedure ⟨.objects, 2, 0⟩ ⟨.objects, 1, 0⟩ ⟨.scopes, 0, 0⟩,
      .pair ⟨.objects, 3, 0⟩ ⟨.objects, 1, 0⟩, .pair ⟨.objects, 2, 0⟩ ⟨.objects, 4, 0⟩]⟩ }
    store.Grounded ∧ store.Holds ⟨.objects, 5, 0⟩ ∧
      store.render ⟨.objects, 5, 0⟩ = .ok "((7) #<procedure (7)> . 7)" := by
  intro store
  have grounded : store.Grounded := by
    constructor
    intro i record inside
    match i, inside with
    | 0, rfl | 1, rfl => trivial
    | 2, rfl => exact ⟨⟨1, by decide, rfl⟩, ⟨0, by decide, rfl⟩⟩
    | 3, rfl => exact ⟨⟨2, by decide, rfl⟩, ⟨1, by decide, rfl⟩⟩
    | 4, rfl => exact ⟨⟨3, by decide, rfl⟩, ⟨1, by decide, rfl⟩⟩
    | 5, rfl => exact ⟨⟨2, by decide, rfl⟩, ⟨4, by decide, rfl⟩⟩
  have held : store.Holds ⟨.objects, 5, 0⟩ := ⟨5, by decide, rfl⟩
  have single : (Tree.list [.integer 7]).UnfoldedAt store ⟨.objects, 2, 0⟩ :=
    ⟨_, _, .link rfl (.last rfl nofun), .inl rfl, trivial⟩
  have unfolded : (Tree.dotted [.list [.integer 7], .procedure (.list [.integer 7])]
      (.integer 7)).UnfoldedAt store ⟨.objects, 5, 0⟩ :=
    ⟨_, _, _, .link rfl (.link rfl (.last rfl nofun)), List.cons_ne_nil _ _, nofun,
      ⟨single, ⟨_, _, _, rfl, single⟩, trivial⟩, .inl rfl⟩
  exact ⟨grounded, held, ((render_by_recursion grounded held).2 _ unfolded).1⟩

end Store

end ScopedLisp
