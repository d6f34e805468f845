import ScopedLisp.Proofs.Eval.Forms
import ScopedLisp.Proofs.Store.Links

/-!
# Evaluating an operation

A combination with an operator in front counts a step, evaluates its operands from left to right,
puts their values into a list and gives the list to the operator. The operator takes two integers
and allocates another one.
-/

namespace ScopedLisp

open Routine

namespace Session

variable {session : Session}

/-- The session after so many more steps, with these records added to the heap. -/
def worked (session : Session) (records : List Record) (steps : Nat) : Session :=
  { session with
    store := { session.store with heap := session.store.heap.insertAll records }
    steps := session.steps + steps }

theorem worked_worked (session : Session) (records more : List Record) (steps further : Nat) :
    (session.worked records steps).worked more further =
      session.worked (records ++ more) (steps + further) := by
  simp only [worked, Heap.insertAll_append, Nat.add_assoc]

theorem extends_worked (session : Session) (records : List Record) (steps : Nat) :
    session.store.Extends (session.worked records steps).store :=
  ⟨session.store.heap.extends_insertAll records, rfl, List.prefix_refl _, rfl, List.prefix_refl _⟩

/-- So many more steps may be counted. -/
def Affords (session : Session) (steps : Nat) : Prop :=
  session.stepLimit = 0 ∨ ((session.steps + steps : Nat) : Int) ≤ session.stepLimit

theorem Affords.hasStepLeft {steps : Nat} (budget : session.Affords steps) (some : 0 < steps) :
    session.HasStepLeft :=
  budget.imp_right fun inside => by omega

theorem Affords.fewer {steps fewer : Nat} (budget : session.Affords steps) (less : fewer ≤ steps) :
    session.Affords fewer :=
  budget.imp_right fun inside => by omega

theorem Affords.worked {taken steps : Nat} (budget : session.Affords (taken + steps))
    (records : List Record) : (session.worked records taken).Affords steps :=
  budget.imp_right fun inside => by
    simp only [Session.worked]
    omega

/-- At the expression stands a combination of this operator and a list of operands. -/
def IsOperation (session : Session) (expr : Handle) (operator : Operator)
    (operands : List Handle) : Prop :=
  ∃ head name rest last, session.store.heap.get expr = .ok (.pair head rest) ∧
    session.store.heap.get head = .ok (.operator name) ∧
    session.vocabulary.operator name = .ok operator ∧
    session.store.heap.Chain rest operands last .nil

theorem IsOperation.mono {later : Session} {expr : Handle} {operator : Operator}
    {operands : List Handle} (stands : session.IsOperation expr operator operands)
    (grown : session.store.Extends later.store) (words : later.vocabulary = session.vocabulary) :
    later.IsOperation expr operator operands := by
  obtain ⟨head, name, rest, last, combination, reserved, meaning, chain⟩ := stands
  refine ⟨head, name, rest, last, grown.heap.get combination, grown.heap.get reserved, ?_,
    chain.mono grown.heap⟩
  rw [words]
  exact meaning

end Session

namespace Calls

variable {calls : Calls} {session mid left : Session}

/-- Evaluated one after another, the expressions have these values. The store only grows. -/
inductive InTurn (calls : Calls) : Session → List Handle → List Handle → Session → Prop where
  | done (session : Session) : InTurn calls session [] [] session
  | next {session mid left : Session} {expr value : Handle} {exprs values : List Handle}
      (evaluated : calls.evaluate expr session = .ok value mid)
      (grown : session.store.Extends mid.store) (rest : InTurn calls mid exprs values left) :
      InTurn calls session (expr :: exprs) (value :: values) left

theorem evaluateEach_pair (calm : calls.Calm) {h car cdr : Handle}
    (stored : session.store.heap.get h = .ok (.pair car cdr)) (steps : Nat) (values : List Handle) :
    calls.evaluateEach (steps + 1) h values session =
      (calls.evaluate car >>= fun value => calls.evaluateEach steps cdr (value :: values))
        session := by
  have fetched : fetch h session = .ok (.pair car cdr) session := inspect_ok stored
  rw [evaluateEach, bind_ok (calm .walking session), bind_ok fetched]

theorem InTurn.evaluateEach (calm : calls.Calm) {h last : Handle} {exprs values : List Handle}
    (turn : calls.InTurn session exprs values left)
    (chain : session.store.heap.Chain h exprs last .nil) {steps : Nat}
    (enough : exprs.length < steps) (before : List Handle) :
    calls.evaluateEach steps h before session = .ok (values.reverse ++ before) left := by
  induction turn generalizing h steps before with
  | done session =>
    cases chain with
    | last stored _ =>
      obtain ⟨rest, rfl⟩ := Nat.exists_eq_add_of_lt enough
      have fetched : fetch _ session = .ok .nil session := inspect_ok stored
      rw [Calls.evaluateEach, bind_ok (calm .walking session), bind_ok fetched]
      rfl
  | next evaluated grown _ ih =>
    cases chain with
    | link stored behind =>
      obtain ⟨rest, rfl⟩ := Nat.exists_eq_add_of_lt enough
      rw [evaluateEach_pair calm stored, bind_ok evaluated,
        ih (behind.mono grown.heap) (by simp only [List.length_cons]; omega), List.reverse_cons,
        List.append_assoc]
      rfl

/-- What comes first and fails, ends the evaluation of all. -/
theorem InTurn.evaluateEach_error (calm : calls.Calm) {h last expr : Handle}
    {exprs values others : List Handle} (turn : calls.InTurn session exprs values mid)
    {failure : Failure} (failed : calls.evaluate expr mid = .error failure left)
    (chain : session.store.heap.Chain h (exprs ++ expr :: others) last .nil) {steps : Nat}
    (enough : exprs.length < steps) (before : List Handle) :
    calls.evaluateEach steps h before session = .error failure left := by
  induction turn generalizing h steps before with
  | done session =>
    cases chain with
    | link stored _ =>
      obtain ⟨rest, rfl⟩ := Nat.exists_eq_add_of_lt enough
      rw [evaluateEach_pair calm stored, bind_error failed]
  | next evaluated grown _ ih =>
    cases chain with
    | link stored behind =>
      obtain ⟨rest, rfl⟩ := Nat.exists_eq_add_of_lt enough
      rw [evaluateEach_pair calm stored, bind_ok evaluated]
      exact ih failed (behind.mono grown.heap) (by simp only [List.length_cons]; omega) _

theorem allocate_eq (calm : calls.Calm) (record : Record) (session : Session) :
    calls.allocate record session =
      .ok (session.store.heap.insert record).2 (session.worked [record] 0) := by
  rw [Calls.allocate, bind_ok (calm .allocating session)]
  rfl

/-- A list of values, given last value first, is built as any list is. -/
theorem allocateList_eq (calm : calls.Calm) (values : List Handle) (rest : Handle)
    (session : Session) :
    calls.allocateList rest values session =
      .ok (session.store.heap.chain values.reverse rest).2 { session with
        store := { session.store with
          heap := (session.store.heap.chain values.reverse rest).1 } } := by
  induction values generalizing rest session with
  | nil => rfl
  | cons value earlier ih =>
    have built : session.store.heap.chain (value :: earlier).reverse rest =
        (session.store.heap.insert (.pair value rest)).1.chain earlier.reverse
          (session.store.heap.insert (.pair value rest)).2 := by
      rw [List.reverse_cons, Heap.chain, List.foldr_append]
      rfl
    rw [Calls.allocateList, bind_ok (allocate_eq calm _ session), ih, built]
    rfl

/-- An operator is given a new list of the values of its operands. -/
theorem InTurn.evaluateArguments (calm : calls.Calm) {rest last : Handle}
    {exprs values : List Handle} (turn : calls.InTurn session exprs values left)
    (chain : session.store.heap.Chain rest exprs last .nil)
    (begins : left.store.heap.get left.store.heap.nil = .ok .nil) :
    ∃ args cdrs, cdrs.length = values.length ∧
      let listed := left.worked (List.zipWith .pair values.reverse cdrs) 0
      calls.evaluateArguments rest session = .ok args listed ∧
        listed.store.heap.elements args = .ok values := by
  obtain ⟨cdrs, length, built⟩ := left.store.heap.chain_eq_insertAll values left.store.heap.nil
  refine ⟨(left.store.heap.chain values left.store.heap.nil).2, cdrs, length, ?_, ?_⟩
  · have sized : heapSize session = .ok session.store.heap.size session := inspect_ok rfl
    have enough : exprs.length < session.store.heap.size + 1 + furtherRounds := by
      have short := chain.length_lt_size
      omega
    have evaluated := turn.evaluateEach calm chain enough []
    have empty : nil left = .ok left.store.heap.nil left := inspect_ok rfl
    rw [Calls.evaluateArguments, bind_ok sized, bind_ok evaluated, bind_ok empty,
      allocateList_eq calm, List.append_nil, List.reverse_reverse, built]
    rfl
  · rw [Session.worked, Heap.elements_eq_ok_iff]
    dsimp only
    rw [← built]
    have links := left.store.heap.links_chain values left.store.heap.nil
    have grown := left.store.heap.extends_insertAll (List.zipWith .pair values.reverse cdrs)
    rw [← built] at grown
    have whole := links.chain (.last (grown.get begins) nofun)
    rw [List.append_nil] at whole
    exact ⟨_, whole⟩

/-- If one operand fails, nothing comes of the others. -/
theorem InTurn.evaluateArguments_error (calm : calls.Calm) {rest last expr : Handle}
    {exprs values others : List Handle} (turn : calls.InTurn session exprs values mid)
    {failure : Failure} (failed : calls.evaluate expr mid = .error failure left)
    (chain : session.store.heap.Chain rest (exprs ++ expr :: others) last .nil) :
    calls.evaluateArguments rest session = .error failure left := by
  have sized : heapSize session = .ok session.store.heap.size session := inspect_ok rfl
  have enough : exprs.length < session.store.heap.size + 1 + furtherRounds := by
    have short := chain.length_lt_size
    rw [List.length_append] at short
    omega
  have ended := turn.evaluateEach_error calm failed chain enough []
  rw [Calls.evaluateArguments, bind_ok sized]
  exact bind_error ended

end Calls

/-! ### Operators -/

section Operators

variable {calls : Calls} {session : Session}

/-- What the operator makes of two integers. -/
def Operator.apply : Operator → Int → Int → Int
  | .sum, left, right => left + right
  | .difference, left, right => left - right

theorem Operator.combine_two (operator : Operator) (left right : Int) :
    operator.combine [left, right] = operator.apply left right := by
  cases operator with
  | sum => exact congrArg (· + right) (Int.zero_add left)
  | difference => rfl

theorem Routine.expectInteger_ok {h : Handle} {value : Int}
    (stored : session.store.heap.get h = .ok (.integer value)) :
    expectInteger h session = .ok value session := by
  have fetched : fetch h session = .ok (.integer value) session := inspect_ok stored
  rw [expectInteger, bind_ok fetched]
  rfl

/-- Anything but an integer is named in the complaint. -/
theorem Routine.expectInteger_error {h : Handle} {record : Record} {shown : String}
    (stored : session.store.heap.get h = .ok record) (other : ∀ value, record ≠ .integer value)
    (described : session.store.describe h = .ok shown) :
    expectInteger h session = .error (.typeMismatch "integer" shown) session := by
  have fetched : fetch h session = .ok record session := inspect_ok stored
  have named : describe h session = .ok shown session := inspect_ok described
  rw [expectInteger, bind_ok fetched]
  cases record with
  | integer value => exact absurd rfl (other value)
  | _ => exact bind_ok named

theorem Operator.run_eq (calm : calls.Calm) {args first second : Handle}
    (listed : session.store.heap.elements args = .ok [first, second]) (operator : Operator) :
    operator.run calls args session =
      (do
        let left ← expectInteger first
        let right ← expectInteger second
        calls.allocate (.integer (operator.apply left right))) session := by
  have found : elements args session = .ok [first, second] session := inspect_ok listed
  have counted : expectCount operator.word 2 args session = .ok [first, second] session := by
    rw [expectCount, bind_ok found]
    rfl
  rw [Operator.run, bind_ok (calm .dispatching session), bind_ok counted]
  simp only [List.mapM_cons, List.mapM_nil, bind_assoc, pure_bind, Operator.combine_two]

end Operators

/-! ### Combinations -/

section Step

variable {session : Session} {expr : Handle} {operator : Operator}

/-- An operator runs on the list of its arguments once the step is counted and these are
evaluated. -/
theorem evaluate_of_operation (total room : Nat) (budget : session.HasStepLeft)
    {operands : List Handle} (stands : session.IsOperation expr operator operands) :
    ∃ rest last, session.counted.store.heap.Chain rest operands last .nil ∧
      let calls := (CallStack.withRoom total : EvalStack).callsWithin room
      evaluate (.withRoom total) (room + 1) expr session =
        (calls.evaluateArguments rest >>= operator.run calls) session.counted := by
  obtain ⟨head, name, rest, last, combination, reserved, meaning, chain⟩ := stands
  have headed : fetch head session.counted = .ok (.operator name) session.counted :=
    inspect_ok reserved
  have found : inspect (fun _ words => words.operator name) session.counted =
      .ok operator session.counted := inspect_ok meaning
  refine ⟨rest, last, chain, ?_⟩
  rw [evaluate_of_pair budget combination, Calls.combination, bind_ok headed]
  dsimp only
  rw [bind_ok found]

end Step

end ScopedLisp
