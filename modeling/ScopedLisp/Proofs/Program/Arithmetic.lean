import ScopedLisp.Proofs.Datum.Shown
import ScopedLisp.Proofs.Eval.Operations
import ScopedLisp.Proofs.Program.Reachable
import ScopedLisp.Proofs.Program.StepLimit

/-!
# Arithmetic

Sums and differences of literals, nested in any way. If all the literals are integers, evaluation
computes with them exactly. It takes a step for each literal and each operation and allocates three
records for each operation, and these are all that it changes. If one of the literals is no integer,
an operation that meets it refuses it.
-/

namespace ScopedLisp

open Routine

/-! ### Calculations -/

/-- A literal other than an integer. -/
inductive NonNumber where
  | boolean (value : Bool)
  | string (text : String)
  | character (text : String)

/-- What an operation is applied to. -/
inductive Operand where
  | integer (value : Int)
  | nonNumber (literal : NonNumber)

/-- Operations of two operands each, down to literals. -/
inductive Calculation where
  | leaf (operand : Operand)
  | operation (operator : Operator) (left right : Calculation)

namespace NonNumber

def datum : NonNumber → Datum
  | .boolean value => .boolean value
  | .string text => .string text
  | .character text => .character text

/-- The literal as messages describe it. -/
def description : NonNumber → String
  | .boolean value => "boolean " ++ if value then "#t" else "#f"
  | .string text => "string " ++ Literal.ofText text
  | .character text => "character " ++ ("#\\" ++ Literal.characterName text)

end NonNumber

namespace Operand

def datum : Operand → Datum
  | .integer value => .integer value
  | .nonNumber literal => literal.datum

/-- The number, or else the literal that is none. -/
def number : Operand → Except NonNumber Int
  | .integer value => .ok value
  | .nonNumber literal => .error literal

end Operand

/-- What the operation comes to: a number, or an operand that is none. -/
def Operator.result (operator : Operator) (left right : Operand) : Except NonNumber Int := do
  return operator.apply (← left.number) (← right.number)

/-- What the operation comes to on what its two sides come to. Both are evaluated before the
operation looks at what they are. -/
def Operator.outcome (operator : Operator) (left right : Except NonNumber Operand) :
    Except NonNumber Operand := do
  let first ← left
  let second ← right
  return .integer (← operator.result first second)

namespace Calculation

/-- The calculation as a combination of combinations. -/
def datum : Calculation → Datum
  | .leaf operand => operand.datum
  | .operation operator left right => .list [.atom operator.word, left.datum, right.datum]

/-- The number of literals and operations. -/
def nodes : Calculation → Nat
  | .leaf _ => 1
  | .operation _ left right => 1 + left.nodes + right.nodes

def operations : Calculation → Nat
  | .leaf _ => 0
  | .operation _ left right => left.operations + right.operations + 1

/-- The number of operations within one another. -/
def depth : Calculation → Nat
  | .leaf _ => 0
  | .operation _ left right => max left.depth right.depth + 1

/-- The literals that are no integers, from left to right. -/
def nonNumbers : Calculation → List NonNumber
  | .leaf (.integer _) => []
  | .leaf (.nonNumber literal) => [literal]
  | .operation _ left right => left.nonNumbers ++ right.nonNumbers

/-- The exact value, if all literals are integers. -/
def value? : Calculation → Option Int
  | .leaf (.integer value) => some value
  | .leaf (.nonNumber _) => none
  | .operation operator left right => do
    return operator.apply (← left.value?) (← right.value?)

/-- What the calculation comes to: an operand, or a literal that an operation refuses. -/
def outcome : Calculation → Except NonNumber Operand
  | .leaf operand => .ok operand
  | .operation operator left right => operator.outcome left.outcome right.outcome

/-- A calculation comes to its value if all literals are integers. If one is not, an operation
refuses one of them, unless there is no operation. -/
theorem outcome_cases (tree : Calculation) :
    (∃ value, tree.outcome = .ok (.integer value) ∧ tree.nonNumbers = [] ∧
      tree.value? = some value) ∨
    (∃ literal, tree = .leaf (.nonNumber literal)) ∨
    ∃ literal ∈ tree.nonNumbers, tree.outcome = .error literal := by
  induction tree with
  | leaf operand =>
    cases operand with
    | integer value => exact .inl ⟨value, rfl, rfl, rfl⟩
    | nonNumber literal => exact .inr (.inl ⟨literal, rfl⟩)
  | operation operator left right ihl ihr =>
    rcases ihl with ⟨first, comes, integers, known⟩ | ⟨literal, rfl⟩ | ⟨literal, member, refused⟩
    · rcases ihr with ⟨second, comes', integers', known'⟩ | ⟨literal, rfl⟩ |
        ⟨literal, member, refused⟩
      · refine .inl ⟨operator.apply first second, ?_, ?_, ?_⟩
        · rw [outcome, comes, comes']
          rfl
        · rw [nonNumbers, integers, integers']
          rfl
        · rw [value?, known, known']
          rfl
      · refine .inr (.inr ⟨literal, List.mem_append_right _ (List.mem_singleton_self _), ?_⟩)
        rw [outcome, comes]
        rfl
      · refine .inr (.inr ⟨literal, List.mem_append_right _ member, ?_⟩)
        rw [outcome, comes, refused]
        rfl
    · have first_refused := List.mem_append_left right.nonNumbers (List.mem_singleton_self literal)
      rcases ihr with ⟨second, comes, -, -⟩ | ⟨other, rfl⟩ | ⟨other, member, refused⟩
      · refine .inr (.inr ⟨literal, first_refused, ?_⟩)
        rw [outcome, comes]
        rfl
      · exact .inr (.inr ⟨literal, first_refused, rfl⟩)
      · refine .inr (.inr ⟨other, List.mem_append_right _ member, ?_⟩)
        rw [outcome, refused]
        rfl
    · refine .inr (.inr ⟨literal, List.mem_append_left _ member, ?_⟩)
      rw [outcome, refused]
      rfl

theorem exists_value {tree : Calculation} (integers : tree.nonNumbers = []) :
    ∃ value, tree.value? = some value ∧ tree.outcome = .ok (.integer value) := by
  rcases tree.outcome_cases with ⟨value, comes, -, known⟩ | ⟨literal, rfl⟩ | ⟨literal, member, -⟩
  · exact ⟨value, known, comes⟩
  · cases integers
  · rw [integers] at member
    cases member

theorem exists_refused {tree : Calculation} (operated : 0 < tree.operations)
    (mixed : tree.nonNumbers ≠ []) :
    ∃ literal ∈ tree.nonNumbers, tree.outcome = .error literal := by
  rcases tree.outcome_cases with ⟨value, -, integers, -⟩ | ⟨literal, rfl⟩ | refused
  · exact absurd integers mixed
  · cases operated
  · exact refused

/-! ### In a session -/

/-- The calculation stands at the handle. -/
inductive StandsAt (session : Session) : Calculation → Handle → Prop where
  | leaf {operand : Operand} {h : Handle} (shown : operand.datum.ShownAt session.store h) :
    StandsAt session (.leaf operand) h
  | operation {operator : Operator} {left right : Calculation} {h first second : Handle}
    (stands : session.IsOperation h operator [first, second])
    (on_left : StandsAt session left first) (on_right : StandsAt session right second) :
    StandsAt session (.operation operator left right) h

theorem StandsAt.mono {session later : Session} {tree : Calculation} {h : Handle}
    (stands : tree.StandsAt session h) (grown : session.store.Extends later.store)
    (words : later.vocabulary = session.vocabulary) : tree.StandsAt later h := by
  induction stands with
  | leaf shown => exact .leaf (shown.mono grown)
  | operation stands _ _ ihl ihr => exact .operation (stands.mono grown words) ihl ihr

end Calculation

/-! ### Placing -/

/-- Every operator goes by its own word. -/
def Vocabulary.KnowsOperators (words : Vocabulary) : Prop :=
  ∀ operator : Operator, words.classify operator.word = some (.operator operator.word) ∧
    words.operator operator.word = .ok operator

theorem Vocabulary.standard_knowsOperators : standard.KnowsOperators := by
  intro operator
  cases operator <;> exact ⟨rfl, rfl⟩

theorem Operand.native (operand : Operand) : operand.datum.Native := by
  rcases operand with value | (value | text | text) <;> exact List.forall_mem_singleton.mpr rfl

section Placing

variable {session : Session} {operator : Operator}

/-- The word of an operator is placed as the operator. -/
theorem embedded_operator (words : session.vocabulary.KnowsOperators) (operator : Operator) :
    embedded (.atom operator.word) session =
      .ok (session.store.heap.insert (.operator operator.word)).2
        (session.worked [.operator operator.word] 0) := by
  have reading : inspect (fun _ words => .ok (words.classify operator.word)) session =
      .ok (some (.operator operator.word)) session := inspect_ok (congrArg _ (words operator).1)
  rw [embedded, internAtom, bind_assoc, bind_ok reading]
  rfl

/-- An operator and operands in a new list are an operation. -/
theorem isOperation_of_chain (words : session.vocabulary.KnowsOperators)
    (begins : session.store.BeginsWithNil) {head : Handle} {operator : Operator}
    (reserved : session.store.heap.get head = .ok (.operator operator.word))
    (operands : List Handle) :
    ∃ h left, allocateList (head :: operands) none session = .ok h left ∧
      left.vocabulary = session.vocabulary ∧ session.store.Extends left.store ∧
      left.IsOperation h operator operands := by
  let built := session.store.heap.chain (head :: operands) session.store.heap.nil
  have grown : session.store.heap.Extends built.1 := by
    obtain ⟨cdrs, -, same⟩ := session.store.heap.chain_eq_insertAll (head :: operands)
      session.store.heap.nil
    exact same ▸ session.store.heap.extends_insertAll _
  refine ⟨built.2, { session with store := { session.store with heap := built.1 } }, rfl, rfl,
    ⟨grown, rfl, List.prefix_refl _, rfl, List.prefix_refl _⟩, ?_⟩
  have links : built.1.Links built.2 (head :: operands) session.store.heap.nil :=
    session.store.heap.links_chain _ _
  cases links with
  | link stored rest =>
    have chain := rest.chain (.last (grown.get begins) nofun)
    rw [List.append_nil] at chain
    exact ⟨head, _, _, _, stored, grown.get reserved, (words operator).2, chain⟩

/-- A calculation is placed where it then stands. -/
theorem Calculation.embedded_stands (words : session.vocabulary.KnowsOperators)
    (begins : session.store.BeginsWithNil) (tree : Calculation) :
    ∃ h left, embedded tree.datum session = .ok h left ∧
      left.vocabulary = session.vocabulary ∧ session.store.Extends left.store ∧
      tree.StandsAt left h := by
  induction tree generalizing session with
  | leaf operand =>
    obtain ⟨h, left, placed, grown, -, shown⟩ := embedded_places begins operand.native
    refine ⟨h, left, placed, ?_, grown, .leaf shown⟩
    rw [left_of_embedded placed]
  | operation operator left right ihl ihr =>
    let named := session.worked [.operator operator.word] 0
    have named_grown : session.store.Extends named.store := session.extends_worked _ _
    obtain ⟨first, mid, on_left, words_mid, grown_mid, stands⟩ :=
      @ihl named words (named_grown.beginsWithNil begins)
    obtain ⟨second, later, on_right, words_later, grown_later, stands'⟩ :=
      @ihr mid (words_mid ▸ words)
        (grown_mid.beginsWithNil (named_grown.beginsWithNil begins))
    have reserved : later.store.heap.get (session.store.heap.insert (.operator operator.word)).2 =
        .ok (.operator operator.word) :=
      (grown_mid.trans grown_later).heap.get (Heap.get_insert_self _ _)
    have same_words : later.vocabulary = session.vocabulary := words_later.trans words_mid
    obtain ⟨h, final, built, words_final, grown_final, operation⟩ :=
      isOperation_of_chain (same_words ▸ words) (grown_later.beginsWithNil
        (grown_mid.beginsWithNil (named_grown.beginsWithNil begins))) reserved [first, second]
    refine ⟨h, final, ?_, words_final.trans same_words,
      named_grown.trans (grown_mid.trans (grown_later.trans grown_final)), .operation operation
      (stands.mono (grown_later.trans grown_final) (words_final.trans words_later))
      (stands'.mono grown_final words_final)⟩
    rw [Calculation.datum, embedded]
    simp only [embeddedAll, bind_assoc, pure_bind]
    rw [bind_ok (embedded_operator words operator), bind_ok on_left, bind_ok on_right]
    exact built

end Placing

/-! ### Evaluation -/

def Record.isPair : Record → Bool
  | .pair _ _ => true
  | _ => false

def Record.isInteger : Record → Bool
  | .integer _ => true
  | _ => false

/-- What so many operations allocate: two pairs and an integer each. -/
structure Workings (records : List Record) (operations : Nat) : Prop where
  length : records.length = 3 * operations
  pairs : records.countP Record.isPair = 2 * operations
  integers : records.countP Record.isInteger = operations

namespace Workings

theorem append {records more : List Record} {operations others : Nat}
    (first : Workings records operations) (second : Workings more others) :
    Workings (records ++ more) (operations + others) where
  length := by rw [List.length_append, first.length, second.length, Nat.mul_add]
  pairs := by rw [List.countP_append, first.pairs, second.pairs, Nat.mul_add]
  integers := by rw [List.countP_append, first.integers, second.integers]

/-- An operation allocates the list of its operands and then its result. -/
theorem operation (first second : Handle) {cdrs : List Handle} (two : cdrs.length = 2)
    (value : Int) :
    Workings (List.zipWith .pair [second, first] cdrs ++ [.integer value]) 1 := by
  obtain ⟨cdr, cdr', rfl⟩ := List.length_eq_two.mp two
  exact ⟨rfl, rfl, rfl⟩

end Workings

/-- How an evaluation ends that takes so many steps and operations to come to this outcome. An
operand stands at the result. A literal that was refused is described in the failure. Apart from the
steps and the new records the session is the one that was found. -/
inductive Calculates (session : Session) (steps operations : Nat) :
    Except NonNumber Operand → Ending Handle → Prop where
  | value {operand : Operand} {result : Handle} {records : List Record}
    (shown : operand.datum.ShownAt (session.worked records steps).store result)
    (workings : Workings records operations) :
    Calculates session steps operations (.ok operand) (.ok result (session.worked records steps))
  | refused (literal : NonNumber) (records : List Record) (taken : Nat) :
    Calculates session steps operations (.error literal)
      (.error (.typeMismatch "integer" literal.description) (session.worked records taken))

theorem Calculates.of_counted {session : Session} {steps operations : Nat}
    {outcome : Except NonNumber Operand} {ending : Ending Handle}
    (ends : Calculates session.counted steps operations outcome ending) :
    Calculates session (1 + steps) operations outcome ending := by
  have counted : session.counted = session.worked [] 1 := rfl
  cases ends with
  | value shown workings =>
    rw [counted, Session.worked_worked] at shown ⊢
    exact .value shown workings
  | refused literal records taken =>
    rw [counted, Session.worked_worked]
    exact .refused literal _ _

section Describing

variable {store : Store} {h : Handle}

theorem NonNumber.describe {literal : NonNumber} (shown : literal.datum.ShownAt store h) :
    store.describe h = .ok literal.description := by
  cases literal with
  | boolean value =>
    have text := @Store.render_leaf store (.boolean value) rfl h shown
    exact (ok_bind shown).trans (ok_bind text)
  | string content =>
    have text := @Store.render_leaf store (.string content) rfl h shown
    obtain ⟨t, stored, -⟩ := shown
    exact (ok_bind stored).trans (ok_bind text)
  | character name =>
    have text := @Store.render_leaf store (.character name) rfl h shown
    exact (ok_bind shown).trans (ok_bind text)

end Describing

section Evaluation

variable {session : Session}

theorem Operand.expectInteger_ok {operand : Operand} {h : Handle} {value : Int}
    (shown : operand.datum.ShownAt session.store h) (number : operand.number = .ok value) :
    expectInteger h session = .ok value session := by
  cases operand with
  | integer other =>
    cases number
    exact Routine.expectInteger_ok shown
  | nonNumber literal => cases number

theorem Operand.expectInteger_error {operand : Operand} {h : Handle} {literal : NonNumber}
    (shown : operand.datum.ShownAt session.store h) (number : operand.number = .error literal) :
    expectInteger h session = .error (.typeMismatch "integer" literal.description) session := by
  cases operand with
  | integer value => cases number
  | nonNumber other =>
    cases number
    have described := NonNumber.describe shown
    cases literal with
    | boolean value => exact Routine.expectInteger_error shown nofun described
    | character name => exact Routine.expectInteger_error shown nofun described
    | string text =>
      obtain ⟨t, stored, -⟩ := shown
      exact Routine.expectInteger_error stored nofun described

/-- A literal is its own value. -/
theorem Operand.evaluate {operand : Operand} {h : Handle}
    (shown : operand.datum.ShownAt session.store h) (budget : session.HasStepLeft)
    (total room : Nat) :
    ScopedLisp.evaluate (.withRoom total) (room + 1) h session = .ok h session.counted := by
  rcases operand with value | (value | text | text)
  · exact evaluate_of_constant budget shown nofun nofun
  · exact evaluate_of_constant budget shown nofun nofun
  · obtain ⟨t, stored, -⟩ := shown
    exact evaluate_of_constant budget stored nofun nofun
  · exact evaluate_of_constant budget shown nofun nofun

section Running

variable {calls : Calls} (calm : calls.Calm) {args first second : Handle}
  (listed : session.store.heap.elements args = .ok [first, second]) {operator : Operator}
  {left right : Operand} (on_left : left.datum.ShownAt session.store first)
  (on_right : right.datum.ShownAt session.store second)
include calm listed on_left on_right

theorem Operator.run_ok {value : Int} (result : operator.result left right = .ok value) :
    operator.run calls args session =
      .ok (session.store.heap.insert (.integer value)).2 (session.worked [.integer value] 0) := by
  rw [Operator.run_eq calm listed]
  cases number : left.number with
  | error literal =>
    rw [Operator.result, number] at result
    cases result
  | ok value =>
    cases number' : right.number with
    | error literal =>
      rw [Operator.result, number, number'] at result
      cases result
    | ok value' =>
      rw [Operator.result, number, number'] at result
      cases result
      rw [bind_ok (Operand.expectInteger_ok on_left number),
        bind_ok (Operand.expectInteger_ok on_right number'), Calls.allocate_eq calm]

theorem Operator.run_error {literal : NonNumber}
    (result : operator.result left right = .error literal) :
    operator.run calls args session =
      .error (.typeMismatch "integer" literal.description) session := by
  rw [Operator.run_eq calm listed]
  cases number : left.number with
  | error other =>
    rw [Operator.result, number] at result
    cases result
    exact bind_error (Operand.expectInteger_error on_left number)
  | ok value =>
    rw [bind_ok (Operand.expectInteger_ok on_left number)]
    cases number' : right.number with
    | error other =>
      rw [Operator.result, number, number'] at result
      cases result
      exact bind_error (Operand.expectInteger_error on_right number')
    | ok value' =>
      rw [Operator.result, number, number'] at result
      cases result

end Running

/-- An operation whose two sides are evaluated in turn. The right side is evaluated in the session
that the left side leaves. -/
theorem Calculates.operation {calls : Calls} (calm : calls.Calm) {rest first second last : Handle}
    (chain : session.store.heap.Chain rest [first, second] last .nil)
    (begins : session.store.BeginsWithNil) (operator : Operator) {steps steps' : Nat}
    {operations operations' : Nat} {left right : Except NonNumber Operand}
    (on_left : Calculates session steps operations left (calls.evaluate first session))
    (on_right : ∀ records, Calculates (session.worked records steps) steps' operations' right
      (calls.evaluate second (session.worked records steps))) :
    Calculates session (steps + steps') (operations + operations' + 1)
      (operator.outcome left right)
      ((calls.evaluateArguments rest >>= operator.run calls) session) := by
  generalize evaluated : calls.evaluate first session = ending at on_left
  cases on_left with
  | refused literal records taken =>
    have ended := (Calls.InTurn.done session).evaluateArguments_error calm evaluated chain
    rw [bind_error ended]
    exact .refused literal records taken
  | @value operand value records shown workings =>
    have grown := session.extends_worked records steps
    have on_right := on_right records
    generalize evaluated' : calls.evaluate second (session.worked records steps) = ending
      at on_right
    cases on_right with
    | refused literal more taken =>
      have before := Calls.InTurn.next evaluated grown (.done _)
      have ended := before.evaluateArguments_error calm evaluated' chain
      rw [bind_error ended, Session.worked_worked]
      exact .refused literal _ _
    | @value operand' value' more shown' workings' =>
      have later := (session.worked records steps).extends_worked more steps'
      have turn := Calls.InTurn.next evaluated grown (.next evaluated' later (.done _))
      obtain ⟨args, cdrs, two, built, listed⟩ := turn.evaluateArguments calm chain
        ((grown.trans later).beginsWithNil begins)
      have kept := ((session.worked records steps).worked more steps').extends_worked
        (List.zipWith .pair [value, value'].reverse cdrs) 0
      have stands := (shown.mono later).mono kept
      have stands' := shown'.mono kept
      rw [bind_ok built]
      have computed : operator.outcome (.ok operand) (.ok operand') =
          operator.result operand operand' >>= fun number => .ok (.integer number) := rfl
      -- both sides have values; whether these are numbers is for the operator to say
      cases met : operator.result operand operand' with
      | error literal =>
        rw [Operator.run_error calm listed stands stands' met, computed, met]
        simp only [Session.worked_worked]
        exact .refused literal _ _
      | ok number =>
        have result : Datum.ShownAt ((((session.worked records steps).worked more steps').worked
            (List.zipWith .pair [value, value'].reverse cdrs) 0).worked [.integer number] 0).store
            (.integer number) _ := Heap.get_insert_self _ _
        rw [Operator.run_ok calm listed stands stands' met, computed, met]
        simp only [Session.worked_worked, List.append_assoc (records ++ more)] at result ⊢
        exact .value result
          ((workings.append workings').append (.operation value value' two number))

/-- Where a calculation stands it is evaluated to its outcome. -/
theorem Calculation.StandsAt.evaluate {tree : Calculation} {h : Handle}
    (stands : tree.StandsAt session h) (begins : session.store.BeginsWithNil)
    (budget : session.Affords tree.nodes) (total room : Nat) (roomy : tree.depth < room) :
    Calculates session tree.nodes tree.operations tree.outcome
      (ScopedLisp.evaluate (.withRoom total) room h session) := by
  induction tree generalizing session h room with
  | leaf operand =>
    obtain ⟨further, rfl⟩ := Nat.exists_eq_add_of_lt roomy
    cases stands with
    | leaf shown =>
      have itself : operand.datum.ShownAt (session.worked [] 1).store h := shown
      rw [Operand.evaluate shown (budget.hasStepLeft Nat.one_pos)]
      exact .value itself ⟨rfl, rfl, rfl⟩
  | operation operator left right ihl ihr =>
    cases room with
    | zero => cases roomy
    | succ room =>
      obtain ⟨deep, deep'⟩ := Nat.max_lt.mp (Nat.lt_of_succ_lt_succ roomy)
      cases stands with
      | @operation _ _ _ _ first second stands on_left on_right =>
        rw [nodes, Nat.add_assoc] at budget ⊢
        have afforded : session.counted.Affords (left.nodes + right.nodes) := budget.worked []
        obtain ⟨rest, last, chain, stepped⟩ := evaluate_of_operation total room
          (budget.hasStepLeft (Nat.add_pos_left Nat.one_pos _)) stands
        rw [stepped, outcome, operations]
        apply Calculates.of_counted
        apply Calculates.operation (calm_withRoom total room) chain begins
        · have stands : left.StandsAt session.counted first := on_left.mono (.refl _) rfl
          exact ihl stands begins (afforded.fewer (Nat.le_add_right _ _)) room deep
        · intro records
          have grown := session.counted.extends_worked records left.nodes
          have stands : right.StandsAt (session.counted.worked records left.nodes) second :=
            on_right.mono grown rfl
          exact ihr stands (grown.beginsWithNil begins) (afforded.worked records) room deep'

end Evaluation

/-- On every stack the evaluation ends like this or finds the stack used up, and it ends like this
on a stack with more room than `depth`. -/
def EndsBeyond (depth : Nat) (expr : Handle) (session : Session) (ending : Ending Handle) : Prop :=
  (∀ stack room, EqualUnless .stackExhausted (evaluate stack room expr session) ending) ∧
    ∀ total room, depth < room → evaluate (.withRoom total) room expr session = ending

/-- What happens with just enough room happens with more. -/
theorem EndsBeyond.of_withRoom {depth : Nat} {expr : Handle} {session : Session}
    {ending : Ending Handle} (entered : session.scopes.active ≠ [])
    (roomy : ∀ left, ending ≠ .error .stackExhausted left)
    (ends : evaluate (.withRoom (depth + 1)) (depth + 1) expr session = ending) :
    EndsBeyond depth expr session ending := by
  have meaning : EvaluatesTo expr session ending := ⟨roomy, depth + 1, ends⟩
  refine ⟨meaning.equalUnless entered, fun total room deeper => ?_⟩
  obtain ⟨more, rfl⟩ := Nat.exists_eq_add_of_le deeper
  exact EvaluatesTo.evaluate_add entered roomy ends more

/-- Sums and differences of literals are computed exactly, however they are nested.

They are placed in a well-formed session with the standard vocabulary, of which only the store
changes, and evaluated there with steps enough. If all literals are integers the result is their
exact value. A step is taken for each literal and each operation, and two pairs and an integer are
allocated for each operation; these are all the differences between the session that is found and
the one that is left, so that scopes, symbols, texts and vocabulary stay as they are.

If there is an operation and some literal is no integer, such a literal is refused where an integer
is expected. If there is just one, it is this one. Again only steps and heap have changed. -/
theorem arithmetic_exact {session : Session} (wf : session.WellFormed)
    (standard : session.vocabulary = .standard) (tree : Calculation)
    (budget : session.Affords tree.nodes) :
    ∃ h placed, embed tree.datum session = .ok h placed ∧
      placed = { session with store := placed.store } ∧
      (tree.nonNumbers = [] → ∃ value result records, tree.value? = some value ∧
        EndsBeyond tree.depth h placed (.ok result (placed.worked records tree.nodes)) ∧
        (placed.worked records tree.nodes).store.heap.get result = .ok (.integer value) ∧
        Workings records tree.operations) ∧
      (0 < tree.operations → tree.nonNumbers ≠ [] → ∃ literal ∈ tree.nonNumbers,
        ∃ records steps, EndsBeyond tree.depth h placed
          (.error (.typeMismatch "integer" literal.description)
            (placed.worked records steps))) := by
  have words : session.vocabulary.KnowsOperators := standard ▸ Vocabulary.standard_knowsOperators
  obtain ⟨h, placed, result, -, grown, stands⟩ :=
    tree.embedded_stands words wf.store.beginsWithNil
  have only := left_of_embedded result
  have afforded : placed.Affords tree.nodes := by
    rw [only]
    exact budget
  have entered : placed.scopes.active ≠ [] := by
    rw [only]
    exact wf.entered
  have ends := stands.evaluate (grown.beginsWithNil wf.store.beginsWithNil) afforded
    (tree.depth + 1) (tree.depth + 1) (Nat.lt_succ_self _)
  refine ⟨h, placed, ?_, only, fun integers => ?_, fun operated mixed => ?_⟩
  · rw [embed_eq_embedded, result]
  · obtain ⟨value, known, comes⟩ := Calculation.exists_value integers
    rw [comes] at ends
    generalize ended : evaluate _ _ h placed = ending at ends
    cases ends with
    | @value _ result records shown workings =>
      exact ⟨value, result, records, known, .of_withRoom entered nofun ended, shown, workings⟩
  · obtain ⟨literal, member, refused⟩ := Calculation.exists_refused operated mixed
    rw [refused] at ends
    generalize ended : evaluate _ _ h placed = ending at ends
    cases ends with
    | refused _ records taken =>
      exact ⟨literal, member, records, taken, .of_withRoom entered nofun ended⟩

/-- Seven less the sum of one and two, with no step to spare; and the same with a boolean in the
place of the one. -/
theorem arithmetic_exact_of_difference :
    let session := Session.start .standard 5
    let lessening (operand : Operand) : Calculation :=
      .operation .difference (.leaf (.integer 7))
        (.operation .sum (.leaf operand) (.leaf (.integer 2)))
    session.WellFormed ∧ session.vocabulary = .standard ∧
      (session.Affords (lessening (.integer 1)).nodes ∧ (lessening (.integer 1)).nonNumbers = [] ∧
        ∃ h placed result records, embed (lessening (.integer 1)).datum session = .ok h placed ∧
          evaluate (.withRoom 3) 3 h placed = .ok result (placed.worked records 5) ∧
          (placed.worked records 5).store.heap.get result = .ok (.integer 4) ∧
          records.length = 6) ∧
      let mixed := lessening (.nonNumber (.boolean true))
      session.Affords mixed.nodes ∧ 0 < mixed.operations ∧ mixed.nonNumbers ≠ [] ∧
        ∃ h placed records steps, embed mixed.datum session = .ok h placed ∧
          evaluate (.withRoom 3) 3 h placed =
            .error (.typeMismatch "integer" "boolean #t") (placed.worked records steps) := by
  intro session lessening
  have wf : session.WellFormed := start_wellFormed .standard 5
  have budget : session.Affords 5 := .inr (Int.le_refl 5)
  refine ⟨wf, rfl, ⟨budget, rfl, ?_⟩, budget, Nat.two_pos, nofun, ?_⟩
  · obtain ⟨h, placed, put, -, exact_value, -⟩ :=
      arithmetic_exact wf rfl (lessening (.integer 1)) budget
    obtain ⟨value, result, records, known, ends, stored, workings⟩ := exact_value rfl
    cases known
    exact ⟨h, placed, result, records, put, ends.2 3 3 (Nat.lt_succ_self 2), stored,
      workings.length⟩
  · obtain ⟨h, placed, put, -, -, refused⟩ :=
      arithmetic_exact wf rfl (lessening (.nonNumber (.boolean true))) budget
    obtain ⟨literal, member, records, steps, ends⟩ := refused Nat.two_pos nofun
    cases List.mem_singleton.mp member
    exact ⟨h, placed, records, steps, put, ends.2 3 3 (Nat.lt_succ_self 2)⟩

end ScopedLisp
