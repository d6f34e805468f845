import ScopedLisp.Proofs.Ending
import ScopedLisp.Proofs.Store.Renaming

/-!
# Simulations

Two evaluations of which the second one works on renamed handles. A simulation relates routines
together with the values that they yield: it holds of the primitives on a handle and on the renamed
handle, and of sequences whenever it holds of the parts. It then holds of every form, of operators
and procedure calls, and of evaluation itself.

Nothing is said where the routine on the left fails with a fault or gives up a walk, and the bounds
on walks may be larger on the right.
-/

namespace ScopedLisp

open Routine

/-! ### Routines run side by side -/

/-- Related values or related failures, and related sessions. Nothing is said where the first ending
is a fault or a walk that was given up. -/
inductive EndsAs (S : Session → Session → Prop) (F : Failure → Failure → Prop) {α β : Type}
    (rel : α → β → Prop) : Ending α → Ending β → Prop where
  | ok {value : α} {value' : β} {left left' : Session} (related : rel value value')
    (same : S left left') : EndsAs S F rel (.ok value left) (.ok value' left')
  | error {failure failure' : Failure} {left left' : Session} (related : F failure failure')
    (same : S left left') : EndsAs S F rel (.error failure left) (.error failure' left')
  | excused {failure : Failure} (fault : failure.isSafe = false) (left : Session)
    (ending : Ending β) : EndsAs S F rel (.error failure left) ending

/-- Run in related sessions, the first routine ends as the second one does. -/
def Tracks (S : Session → Session → Prop) (F : Failure → Failure → Prop) {α β : Type}
    (rel : α → β → Prop) (routine : Routine α) (routine' : Routine β) : Prop :=
  ∀ session session', S session session' → EndsAs S F rel (routine session) (routine' session')

namespace Tracks

variable {S : Session → Session → Prop} {F : Failure → Failure → Prop} {α β γ δ : Type}
  {rel : α → β → Prop} {rel' : γ → δ → Prop}

theorem pure {value : α} {value' : β} (related : rel value value') :
    Tracks S F rel (pure value) (Pure.pure value') :=
  fun _ _ same => .ok related same

theorem fail {failure failure' : Failure} (related : F failure failure') :
    Tracks S F rel (throw failure) (throw failure') :=
  fun _ _ same => .error related same

/-- A fault on the left excuses whatever happens on the right. -/
theorem excuse {failure : Failure} (fault : failure.isSafe = false) (routine : Routine β) :
    Tracks S F rel (throw failure) routine :=
  fun session _ _ => .excused fault session _

/-- Routines that run side by side may be followed by others that do, on values that are related. -/
theorem bind {first : Routine α} {first' : Routine β} {next : α → Routine γ}
    {next' : β → Routine δ} (head : Tracks S F rel first first')
    (tail : ∀ value value', rel value value' → Tracks S F rel' (next value) (next' value')) :
    Tracks S F rel' (first >>= next) (first' >>= next') := by
  intro session session' same
  have ends := head session session' same
  simp only [Bind.bind, EStateM.bind]
  generalize first session = ending, first' session' = ending' at ends
  cases ends with
  | ok related same => exact tail _ _ related _ _ same
  | error related same => exact .error related same
  | excused fault left ending' => exact .excused fault left _

/-- What is read off both sessions. -/
theorem reading {routine : Routine α} {routine' : Routine β} {read : Session → Except Failure α}
    {read' : Session → Except Failure β}
    (agrees : ∀ session session', S session session' →
      Agrees F rel (read session) (read' session'))
    (reads : ∀ session, routine session = (ofExcept (read session) : Routine α) session)
    (reads' : ∀ session, routine' session = (ofExcept (read' session) : Routine β) session) :
    Tracks S F rel routine routine' := by
  intro session session' same
  have found := agrees session session' same
  rw [reads, reads']
  generalize read session = result, read' session' = result' at found
  cases found with
  | ok related => exact .ok related same
  | error related => exact .error related same
  | excused fault result => exact .excused fault session _

/-- A cleanup on the left that fails must fail with a fault. -/
theorem ensuring {body : Routine α} {body' : Routine β} {cleanup cleanup' : Routine Unit}
    (inner : Tracks S F rel body body') (final : Tracks S F Eq cleanup cleanup')
    (faults : ∀ {session failure left}, cleanup session = .error failure left →
      failure.isSafe = false) :
    Tracks S F rel (ensuring body cleanup) (Routine.ensuring body' cleanup') := by
  intro session session' same
  have ends := inner session session' same
  unfold Routine.ensuring
  generalize body session = ending, body' session' = ending' at ends
  cases ends with
  | @ok _ _ left left' related same =>
    have cleaned := final left left' same
    dsimp only
    generalize cleanup left = last, cleanup' left' = last' at cleaned
    cases cleaned with
    | ok _ same => exact .ok related same
    | error failed same => exact .error failed same
    | excused fault after last' => exact .excused fault after _
  | @error _ _ left left' related same =>
    have cleaned := final left left' same
    dsimp only
    generalize cleanup left = last, cleanup' left' = last' at cleaned
    cases cleaned with
    | ok _ same => exact .error related same
    | error failed same => exact .error failed same
    | excused fault after last' => exact .excused fault after _
  | excused fault left ending' =>
    dsimp only
    cases cleaned : cleanup left with
    | ok _ after => exact .excused fault after _
    | error other after => exact .excused (faults cleaned) after _

end Tracks

/-! ### Simulations -/

variable {φ : Handle → Handle} {T : String → String → Prop}
  {R : {α β : Type} → (α → β → Prop) → Routine α → Routine β → Prop}

/-- The second handle is the first one renamed. -/
abbrev HandleRenamed (φ : Handle → Handle) (h h' : Handle) : Prop := h' = φ h

/-- `R` holds of the primitives that forms are made of, run on handles and on the handles renamed by
`φ`, and of sequences of related routines. Texts about objects and symbols are related by `T`. -/
structure Simulation (φ : Handle → Handle) (T : String → String → Prop)
    (R : {α β : Type} → (α → β → Prop) → Routine α → Routine β → Prop) : Prop where
  pure : ∀ {α β : Type} {rel : α → β → Prop} {value : α} {value' : β}, rel value value' →
    R rel (pure value) (pure value')
  bind : ∀ {α β γ δ : Type} {rel : α → β → Prop} {rel' : γ → δ → Prop} {first : Routine α}
    {first' : Routine β} {next : α → Routine γ} {next' : β → Routine δ}, R rel first first' →
      (∀ value value', rel value value' → R rel' (next value) (next' value')) →
        R rel' (first >>= next) (first' >>= next')
  fail : ∀ {α β : Type} {rel : α → β → Prop} {failure failure' : Failure},
    failure.Renamed φ T failure' → R rel (throw failure) (throw failure')
  excuse : ∀ {α β : Type} {rel : α → β → Prop} {failure : Failure}, failure.isSafe = false →
    ∀ routine : Routine β, R rel (throw failure : Routine α) routine
  phrase : ∀ {name name' shown shown' : String}, T name name' → T shown shown' →
    T (name ++ " is bound to " ++ shown) (name' ++ " is bound to " ++ shown')
  fetch : ∀ h, R (fun record record' => record' = record.rename φ) (fetch h) (fetch (φ h))
  nil : R (HandleRenamed φ) nil nil
  heapSize : R (· ≤ ·) heapSize heapSize
  elements : ∀ h, R (fun items items' => items' = items.map φ) (elements h) (elements (φ h))
  parameterShape : ∀ params, R Eq (inspect fun store _ => store.heap.parameterShape params)
    (inspect fun store _ => store.heap.parameterShape (φ params))
  checkParameters : ∀ form params, R Eq (inspect fun store _ => store.checkParameters form params)
    (inspect fun store _ => store.checkParameters form (φ params))
  symbolName : ∀ h, R T (symbolName h) (symbolName (φ h))
  describe : ∀ h, R T (describe h) (describe (φ h))
  words : ∀ {α : Type} (read : Vocabulary → Except Failure α),
    R (fun value value' => value = value' ∧ ∃ words, read words = .ok value)
      (inspect fun _ words => read words) (inspect fun _ words => read words)
  allocate : ∀ record, R (HandleRenamed φ) (allocate record) (allocate (record.rename φ))
  currentScope : R (HandleRenamed φ) currentScope currentScope
  lookupSymbol : ∀ symbol, R (HandleRenamed φ) (lookupSymbol symbol) (lookupSymbol (φ symbol))
  bindSymbol : ∀ symbol value, R Eq (bindSymbol symbol value) (bindSymbol (φ symbol) (φ value))
  assignSymbol : ∀ symbol value,
    R Eq (assignSymbol symbol value) (assignSymbol (φ symbol) (φ value))

/-- Nested calls of which the second ones work on renamed handles. -/
structure SimulatedCalls (φ : Handle → Handle)
    (R : {α β : Type} → (α → β → Prop) → Routine α → Routine β → Prop) (calls calls' : Calls) :
    Prop where
  evaluate : ∀ expr, R (HandleRenamed φ) (calls.evaluate expr) (calls'.evaluate (φ expr))
  reach : ∀ moment, R Eq (calls.reach moment) (calls'.reach moment)
  tick : R Eq calls.tick calls'.tick
  within : ∀ {α β : Type} {rel : α → β → Prop} (parent : Handle) {body : Routine α}
    {body' : Routine β}, R rel body body' →
      R rel (calls.within parent body) (calls'.within (φ parent) body')

variable {α β : Type} {rel : α → β → Prop}

namespace Simulation

theorem refuse (law : Simulation φ T R) (failure : Failure) :
    R rel (throw failure) (throw failure) :=
  law.fail (.same failure)

/-- The number of operands is the same on both sides. -/
theorem miscounted (law : Simulation φ T R) (form : SpecialForm) (expected : Nat → Int)
    (operands : List Handle) :
    R rel (form.miscounted (expected operands.length) operands.length)
      (form.miscounted (expected (operands.map φ).length) (operands.map φ).length) := by
  rw [List.length_map]
  exact law.refuse _

/-- An integer is expected of corresponding objects alike. -/
theorem expectInteger (law : Simulation φ T R) (h : Handle) :
    R Eq (expectInteger h) (expectInteger (φ h)) := by
  apply law.bind (law.fetch h)
  rintro record _ rfl
  cases record with
  | integer value => exact law.pure rfl
  | _ => exact law.bind (law.describe h) fun _ _ alike => law.fail (.typeMismatch alike)

/-- Operands are counted alike, since corresponding lists have the same length. -/
theorem expectCount (law : Simulation φ T R) (name : String) (count : Int) (args : Handle) :
    R (fun items items' => items' = items.map φ) (expectCount name count args)
      (expectCount name count (φ args)) := by
  apply law.bind (law.elements args)
  rintro items _ rfl
  rw [List.length_map]
  split
  · exact law.refuse _
  · exact law.pure rfl

/-- What is done to each item in step is done to a list in step. -/
theorem mapM {γ : Type} (law : Simulation φ T R) {f : γ → Routine α} {g : γ → γ}
    (each : ∀ item, R Eq (f item) (f (g item))) (items : List γ) :
    R Eq (items.mapM f) ((items.map g).mapM f) := by
  induction items with
  | nil => exact law.pure rfl
  | cons item rest ih =>
    rw [List.map_cons, List.mapM_cons, List.mapM_cons]
    apply law.bind (each item)
    rintro value _ rfl
    apply law.bind ih
    rintro values _ rfl
    exact law.pure rfl

end Simulation

namespace SimulatedCalls

variable {calls calls' : Calls}

theorem describe (simulated : SimulatedCalls φ R calls calls') (law : Simulation φ T R)
    (h : Handle) : R T (calls.describe h) (calls'.describe (φ h)) :=
  law.bind (simulated.reach _) fun _ _ _ => law.describe h

/-- A refusal describes corresponding objects, in texts that are related. -/
theorem refuse (simulated : SimulatedCalls φ R calls calls') (law : Simulation φ T R) (h : Handle)
    {cause cause' : String → Failure}
    (alike : ∀ shown shown', T shown shown' → (cause shown).Renamed φ T (cause' shown')) :
    R rel (do throw (cause (← calls.describe h))) (do throw (cause' (← calls'.describe (φ h)))) :=
  law.bind (simulated.describe law h) fun shown shown' related =>
    law.fail (alike shown shown' related)

/-- The wrong type is reported alike. -/
theorem mismatch (simulated : SimulatedCalls φ R calls calls') (law : Simulation φ T R)
    (expected : String) (h : Handle) :
    R rel (do throw (.typeMismatch expected (← calls.describe h)))
      (do throw (.typeMismatch expected (← calls'.describe (φ h)))) :=
  simulated.refuse law h fun _ _ alike => .typeMismatch alike

theorem allocate (simulated : SimulatedCalls φ R calls calls') (law : Simulation φ T R)
    (record : Record) :
    R (HandleRenamed φ) (calls.allocate record) (calls'.allocate (record.rename φ)) :=
  law.bind (simulated.reach _) fun _ _ _ => law.allocate record

theorem bindSymbol (simulated : SimulatedCalls φ R calls calls') (law : Simulation φ T R)
    (symbol value : Handle) :
    R Eq (calls.bindSymbol symbol value) (calls'.bindSymbol (φ symbol) (φ value)) :=
  law.bind (simulated.reach _) fun _ _ _ => law.bindSymbol symbol value

theorem assignSymbol (simulated : SimulatedCalls φ R calls calls') (law : Simulation φ T R)
    (symbol value : Handle) :
    R Eq (calls.assignSymbol symbol value) (calls'.assignSymbol (φ symbol) (φ value)) :=
  law.bind (simulated.reach _) fun _ _ _ => law.assignSymbol symbol value

/-- A chain of pairs is built alike, from its end. -/
theorem allocateList (simulated : SimulatedCalls φ R calls calls') (law : Simulation φ T R)
    (rest : Handle) (items : List Handle) :
    R (HandleRenamed φ) (calls.allocateList rest items)
      (calls'.allocateList (φ rest) (items.map φ)) := by
  induction items generalizing rest with
  | nil => exact law.pure rfl
  | cons item earlier ih =>
    apply law.bind (simulated.allocate law (.pair item rest))
    rintro longer _ rfl
    exact ih longer

/-! ### Procedures -/

/-- Parameters are bound in step, by recursion on the steps of the left. The heap on the right may
be larger, and then there is room for more of them. -/
theorem bindFrom (simulated : SimulatedCalls φ R calls calls') (law : Simulation φ T R)
    {n n' : Nat} (steps : n ≤ n') (params args : Handle) :
    R Eq (calls.bindFrom n params args) (calls'.bindFrom n' (φ params) (φ args)) := by
  induction n generalizing n' params args with
  | zero => exact law.excuse rfl _
  | succ n ih =>
    obtain ⟨n', rfl⟩ := Nat.exists_eq_add_of_le' (Nat.one_le_of_lt steps)
    apply law.bind (law.fetch params)
    rintro record _ rfl
    cases record with
    | pair car cdr =>
      apply law.bind (law.fetch car)
      rintro parameter _ rfl
      cases parameter with
      | symbol symbol =>
        apply law.bind (law.fetch args)
        rintro supplied _ rfl
        cases supplied with
        | pair argument rest =>
          exact law.bind (simulated.bindSymbol law symbol argument) fun _ _ _ =>
            ih (Nat.le_of_succ_le_succ steps) cdr rest
        | _ => exact law.excuse rfl _
      | _ => exact simulated.mismatch law _ car
    | symbol symbol => exact simulated.bindSymbol law symbol args
    | nil => exact law.pure rfl
    | _ => exact simulated.mismatch law _ params

theorem bindParameters (simulated : SimulatedCalls φ R calls calls') (law : Simulation φ T R)
    (params args : Handle) :
    R Eq (calls.bindParameters params args) (calls'.bindParameters (φ params) (φ args)) := by
  apply law.bind (simulated.reach _)
  intro _ _ _
  apply law.bind (law.parameterShape params)
  rintro ⟨required, variadic⟩ _ rfl
  apply law.bind (law.elements args)
  rintro items _ rfl
  dsimp only
  rw [List.length_map]
  split
  · exact law.refuse _
  · exact law.bind law.heapSize fun _ _ larger =>
      simulated.bindFrom law (Nat.succ_le_succ larger) params args

theorem sequenced (simulated : SimulatedCalls φ R calls calls') (law : Simulation φ T R)
    (form : String) (forms : Handle) :
    R (HandleRenamed φ) (calls.sequenced form forms) (calls'.sequenced form (φ forms)) := by
  apply law.bind (law.elements forms)
  rintro items _ rfl
  match items with
  | [] => exact law.nil
  | [only] => exact law.pure rfl
  | _ :: _ :: _ =>
    apply law.bind (law.words fun words => .ok (words.classify SpecialForm.sequence.word))
    rintro word _ ⟨rfl, words, classified⟩
    cases word with
    | none => exact law.refuse _
    | some word =>
      have kept : word.rename φ = word := by
        rcases Vocabulary.classify_eq (Except.ok.inj classified) with rfl | rfl <;> rfl
      have head := simulated.allocate law word
      rw [kept] at head
      apply law.bind head
      rintro head _ rfl
      exact simulated.allocate law (.pair head forms)

/-- The parameters are checked and the body forms are joined in step. -/
theorem makeProcedure (simulated : SimulatedCalls φ R calls calls') (law : Simulation φ T R)
    (form : String) (params forms : Handle) :
    R (HandleRenamed φ) (calls.makeProcedure form params forms)
      (calls'.makeProcedure form (φ params) (φ forms)) := by
  apply law.bind (law.checkParameters form params)
  intro _ _ _
  apply law.bind (simulated.sequenced law form forms)
  rintro body _ rfl
  apply law.bind law.currentScope
  rintro scope _ rfl
  exact simulated.allocate law (.procedure params body scope)

/-- A call binds the parameters in a new scope on both sides and evaluates the bodies there. -/
theorem applyProcedure (simulated : SimulatedCalls φ R calls calls') (law : Simulation φ T R)
    (params body scope args : Handle) :
    R (HandleRenamed φ) (calls.applyProcedure params body scope args)
      (calls'.applyProcedure (φ params) (φ body) (φ scope) (φ args)) :=
  simulated.within scope <|
    law.bind (simulated.bindParameters law params args) fun _ _ _ => simulated.evaluate body

/-- The arguments are evaluated in step, from left to right. -/
theorem evaluateEach (simulated : SimulatedCalls φ R calls calls') (law : Simulation φ T R)
    {n n' : Nat} (steps : n ≤ n') (h : Handle) (values : List Handle) :
    R (fun items items' => items' = items.map φ) (calls.evaluateEach n h values)
      (calls'.evaluateEach n' (φ h) (values.map φ)) := by
  induction n generalizing n' h values with
  | zero => exact law.excuse rfl _
  | succ n ih =>
    obtain ⟨n', rfl⟩ := Nat.exists_eq_add_of_le' (Nat.one_le_of_lt steps)
    apply law.bind (simulated.reach _)
    intro _ _ _
    apply law.bind (law.fetch h)
    rintro record _ rfl
    cases record with
    | pair car cdr =>
      apply law.bind (simulated.evaluate car)
      rintro value _ rfl
      exact ih (Nat.le_of_succ_le_succ steps) cdr (value :: values)
    | nil => exact law.pure rfl
    | _ => exact law.fail (.improperList h)

theorem evaluateArguments (simulated : SimulatedCalls φ R calls calls') (law : Simulation φ T R)
    (args : Handle) :
    R (HandleRenamed φ) (calls.evaluateArguments args) (calls'.evaluateArguments (φ args)) := by
  apply law.bind law.heapSize
  intro size size' larger
  have steps : size + 1 + Calls.furtherRounds ≤ size' + 1 + Calls.furtherRounds :=
    Nat.add_le_add_right (Nat.succ_le_succ larger) _
  apply law.bind (simulated.evaluateEach law steps args [])
  rintro values _ rfl
  apply law.bind law.nil
  rintro empty _ rfl
  exact simulated.allocateList law empty values

/-! ### Special forms and operators -/

theorem evaluateLast (simulated : SimulatedCalls φ R calls calls') (law : Simulation φ T R)
    (result : Handle) (exprs : List Handle) :
    R (HandleRenamed φ) (calls.evaluateLast result exprs)
      (calls'.evaluateLast (φ result) (exprs.map φ)) := by
  induction exprs generalizing result with
  | nil => exact law.pure rfl
  | cons expr rest ih =>
    apply law.bind (simulated.evaluate expr)
    rintro value _ rfl
    exact ih value

theorem branch (simulated : SimulatedCalls φ R calls calls') (law : Simulation φ T R)
    (test consequent : Handle) (alternative : Option Handle) :
    R (HandleRenamed φ) (SpecialForm.branch calls test consequent alternative)
      (SpecialForm.branch calls' (φ test) (φ consequent) (alternative.map φ)) := by
  apply law.bind (simulated.evaluate test)
  rintro value _ rfl
  apply law.bind (simulated.reach _)
  intro _ _ _
  apply law.bind (law.fetch value)
  rintro verdict _ rfl
  have same : verdict.rename φ ≠ .boolean false ↔ verdict ≠ .boolean false := by
    cases verdict <;> simp [Record.rename]
  simp only [same]
  split
  · exact simulated.evaluate consequent
  · cases alternative with
    | some expr => exact simulated.evaluate expr
    | none => exact law.nil

theorem runQuotation (law : Simulation φ T R) (rest : Handle) :
    R (HandleRenamed φ) (SpecialForm.runQuotation rest) (SpecialForm.runQuotation (φ rest)) := by
  apply law.bind (law.elements rest)
  rintro operands _ rfl
  match operands with
  | [datum] => exact law.pure rfl
  | [] => exact law.refuse _
  | first :: second :: others =>
    exact law.miscounted _ (fun _ => 1) (first :: second :: others)

theorem runConditional (simulated : SimulatedCalls φ R calls calls') (law : Simulation φ T R)
    (rest : Handle) :
    R (HandleRenamed φ) (SpecialForm.runConditional calls rest)
      (SpecialForm.runConditional calls' (φ rest)) := by
  apply law.bind (law.elements rest)
  rintro operands _ rfl
  match operands with
  | [test, consequent] => exact simulated.branch law test consequent none
  | [test, consequent, alternative] => exact simulated.branch law test consequent (some alternative)
  | [] | [_] => exact law.refuse _
  | test :: consequent :: alternative :: other :: others =>
    exact law.miscounted _ (fun count => if count < 2 then 2 else 3)
      (test :: consequent :: alternative :: other :: others)

theorem runAssignment (simulated : SimulatedCalls φ R calls calls') (law : Simulation φ T R)
    (rest : Handle) :
    R (HandleRenamed φ) (SpecialForm.runAssignment calls rest)
      (SpecialForm.runAssignment calls' (φ rest)) := by
  apply law.bind (law.elements rest)
  rintro operands _ rfl
  match operands with
  | [target, expr] =>
    apply law.bind (law.fetch target)
    rintro record _ rfl
    cases record with
    | symbol symbol =>
      apply law.bind (simulated.evaluate expr)
      rintro value _ rfl
      exact law.bind (simulated.assignSymbol law symbol value) fun _ _ _ => law.pure rfl
    | _ => exact simulated.mismatch law _ target
  | [] | [_] => exact law.refuse _
  | target :: expr :: other :: others =>
    exact law.miscounted _ (fun _ => 2) (target :: expr :: other :: others)

theorem defineProcedure (simulated : SimulatedCalls φ R calls calls') (law : Simulation φ T R)
    (rest name params : Handle) :
    R (HandleRenamed φ) (SpecialForm.defineProcedure calls rest name params)
      (SpecialForm.defineProcedure calls' (φ rest) (φ name) (φ params)) := by
  apply law.bind (law.fetch name)
  rintro record _ rfl
  cases record with
  | symbol symbol =>
    apply law.bind (law.fetch rest)
    rintro operands _ rfl
    cases operands with
    | pair first body =>
      apply law.bind (simulated.makeProcedure law _ params body)
      rintro value _ rfl
      exact law.bind (simulated.bindSymbol law symbol value) fun _ _ _ => law.pure rfl
    | _ => exact law.excuse rfl _
  | _ => exact simulated.mismatch law _ name

theorem runDefinition (simulated : SimulatedCalls φ R calls calls') (law : Simulation φ T R)
    (rest : Handle) :
    R (HandleRenamed φ) (SpecialForm.runDefinition calls rest)
      (SpecialForm.runDefinition calls' (φ rest)) := by
  apply law.bind (law.elements rest)
  rintro operands _ rfl
  cases operands with
  | nil => exact law.refuse _
  | cons target others =>
    apply law.bind (law.fetch target)
    rintro record _ rfl
    cases record with
    | pair name params => exact simulated.defineProcedure law rest name params
    | symbol symbol =>
      match others with
      | [expr] =>
        apply law.bind (simulated.evaluate expr)
        rintro value _ rfl
        exact law.bind (simulated.bindSymbol law symbol value) fun _ _ _ => law.pure rfl
      | [] => exact law.refuse _
      | expr :: other :: more =>
        exact law.miscounted _ (fun _ => 2) (target :: expr :: other :: more)
    | _ => exact simulated.mismatch law _ target

theorem runAbstraction (simulated : SimulatedCalls φ R calls calls') (law : Simulation φ T R)
    (rest : Handle) :
    R (HandleRenamed φ) (SpecialForm.runAbstraction calls rest)
      (SpecialForm.runAbstraction calls' (φ rest)) := by
  apply law.bind (law.fetch rest)
  rintro record _ rfl
  cases record with
  | pair params body => exact simulated.makeProcedure law _ params body
  | _ => exact law.refuse _

theorem runSequence (simulated : SimulatedCalls φ R calls calls') (law : Simulation φ T R)
    (rest : Handle) :
    R (HandleRenamed φ) (SpecialForm.runSequence calls rest)
      (SpecialForm.runSequence calls' (φ rest)) := by
  apply law.bind (law.elements rest)
  rintro operands _ rfl
  apply law.bind law.nil
  rintro empty _ rfl
  exact simulated.evaluateLast law empty operands

/-- The forms one by one. -/
theorem runForm (simulated : SimulatedCalls φ R calls calls') (law : Simulation φ T R)
    (form : SpecialForm) (rest : Handle) :
    R (HandleRenamed φ) (form.run calls rest) (form.run calls' (φ rest)) := by
  apply law.bind (simulated.reach _)
  intro _ _ _
  cases form with
  | quotation => exact runQuotation law rest
  | conditional => exact simulated.runConditional law rest
  | assignment => exact simulated.runAssignment law rest
  | definition => exact simulated.runDefinition law rest
  | abstraction => exact simulated.runAbstraction law rest
  | sequence => exact simulated.runSequence law rest

/-- The operators differ in what they compute only. -/
theorem runOperator (simulated : SimulatedCalls φ R calls calls') (law : Simulation φ T R)
    (operator : Operator) (args : Handle) :
    R (HandleRenamed φ) (operator.run calls args) (operator.run calls' (φ args)) := by
  apply law.bind (simulated.reach _)
  intro _ _ _
  apply law.bind (law.expectCount _ 2 args)
  rintro items _ rfl
  apply law.bind (law.mapM law.expectInteger items)
  rintro values _ rfl
  exact simulated.allocate law (.integer (operator.combine values))

/-- Corresponding heads are of the same kind, so both sides go on alike. -/
theorem combination (simulated : SimulatedCalls φ R calls calls') (law : Simulation φ T R)
    (head rest : Handle) :
    R (HandleRenamed φ) (calls.combination head rest)
      (calls'.combination (φ head) (φ rest)) := by
  apply law.bind (law.fetch head)
  rintro record _ rfl
  cases record with
  | keyword name =>
    apply law.bind (law.words (·.form name))
    rintro form _ ⟨rfl, -⟩
    exact simulated.runForm law form rest
  | operator name =>
    apply law.bind (law.words (·.operator name))
    rintro operator _ ⟨rfl, -⟩
    apply law.bind (simulated.evaluateArguments law rest)
    rintro args _ rfl
    exact simulated.runOperator law operator args
  | symbol symbol =>
    apply law.bind (law.lookupSymbol symbol)
    rintro target _ rfl
    apply law.bind (law.fetch target)
    rintro callee _ rfl
    cases callee with
    | procedure params body scope =>
      apply law.bind (simulated.evaluateArguments law rest)
      rintro args _ rfl
      exact simulated.applyProcedure law params body scope args
    | _ =>
      apply law.bind (law.symbolName symbol)
      intro name name' alike
      exact simulated.refuse law target fun _ _ shown => .notCallable (law.phrase alike shown)
  | _ => exact simulated.refuse law head fun _ _ alike => .notCallable alike

/-- One evaluation, of which the nested ones are related. -/
theorem step (simulated : SimulatedCalls φ R calls calls') (law : Simulation φ T R)
    (expr : Handle) : R (HandleRenamed φ) (calls.step expr) (calls'.step (φ expr)) := by
  apply law.bind (simulated.reach _)
  intro _ _ _
  apply law.bind simulated.tick
  intro _ _ _
  apply law.bind (law.fetch expr)
  rintro record _ rfl
  cases record with
  | symbol symbol => exact law.lookupSymbol symbol
  | pair head rest => exact simulated.combination law head rest
  | _ => exact law.pure rfl

end SimulatedCalls

/-- Evaluations of an expression and of the renamed one are related, if nested calls with the same
room are as soon as their evaluations are. The induction is on the room. -/
theorem Simulation.evaluate (law : Simulation φ T R) {stack stack' : EvalStack}
    (calls : ∀ room,
      (∀ expr, R (HandleRenamed φ) (evaluate stack room expr) (evaluate stack' room (φ expr))) →
        SimulatedCalls φ R (stack.callsWithin room) (stack'.callsWithin room))
    (room : Nat) (expr : Handle) :
    R (HandleRenamed φ) (evaluate stack room expr) (evaluate stack' room (φ expr)) := by
  induction room generalizing expr with
  | zero => exact law.refuse _
  | succ room ih => exact (calls room ih).step law expr

end ScopedLisp
