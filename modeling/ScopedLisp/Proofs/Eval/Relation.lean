import ScopedLisp.Proofs.Eval.Reading

/-!
# Relations that evaluation respects

Special forms, operators and procedure calls reach the session only through a few primitives. A
relation between routines that holds of each primitive and of a sequence whenever it holds of the
parts is `Respectful`; it then holds of every form. `EvalRelation` adds what evaluation itself
does: it consults the host's stack, may find it used up, and runs bodies in frames of their own.
`EvalRelation.evaluate` concludes that the relation holds between evaluations.

Some relations hold only while the heap has a certain kind of record in it, or while certain special
forms are out of reach. Such a relation is `Governed`: less is asked of it, since whatever is
fetched is known to be of that kind. The lemmas on forms are about governed relations, and every
respectful one is governed in the trivial way.

The two sides are the same program run twice, perhaps with different checks of the stack. A
property of one run is the case in which the right-hand side is ignored.
-/

namespace ScopedLisp

open Routine

/-- `R` holds of the primitives that forms are made of and of sequences of related routines. -/
structure Respectful (R : (α : Type) → Routine α → Routine α → Prop) : Prop where
  pure : ∀ {α : Type} (value : α), R α (pure value) (pure value)
  bind : ∀ {α β : Type} {first first' : Routine α} {next next' : α → Routine β},
    R α first first' → (∀ value, R β (next value) (next' value)) →
      R β (first >>= next) (first' >>= next')
  inspect : ∀ {α : Type} {read : Store → Vocabulary → Except Failure α},
    (∀ store words, FailsPlainly (read store words)) → R α (inspect read) (inspect read)
  allocate : ∀ record, R Handle (allocate record) (allocate record)
  currentScope : R Handle currentScope currentScope
  lookupSymbol : ∀ symbol, R Handle (lookupSymbol symbol) (lookupSymbol symbol)
  bindSymbol : ∀ symbol value, R Unit (bindSymbol symbol value) (bindSymbol symbol value)
  assignSymbol : ∀ symbol value, R Unit (assignSymbol symbol value) (assignSymbol symbol value)

/-- The record is a reserved word. -/
def Record.isWord : Record → Bool
  | .keyword _ | .operator _ => true
  | _ => false

/-- What follows a routine has to be related only for the values that it can deliver. -/
def Delivers (R : (α : Type) → Routine α → Routine α → Prop) {α : Type} (goal : α → Prop)
    (first first' : Routine α) : Prop :=
  ∀ {β : Type} {next next' : α → Routine β},
    (∀ value, goal value → R β (next value) (next' value)) →
      R β (first >>= next) (first' >>= next')

/-- `R` holds of the primitives that forms are made of and of sequences of related routines, in
sessions of which all records satisfy `holds`. A special form that such a record stands for
satisfies `offers`, and every record that is not a reserved word may be added. -/
structure Governed (holds : Record → Prop) (offers : SpecialForm → Prop)
    (R : (α : Type) → Routine α → Routine α → Prop) : Prop where
  plain : ∀ record, record.isWord = false → holds record
  pure : ∀ {α : Type} (value : α), R α (pure value) (pure value)
  bind : ∀ {α β : Type} {first first' : Routine α} {next next' : α → Routine β},
    R α first first' → (∀ value, R β (next value) (next' value)) →
      R β (first >>= next) (first' >>= next')
  inspect : ∀ {α : Type} {read : Store → Vocabulary → Except Failure α},
    (∀ (store : Store) words, store.Permits (read store words)) → R α (inspect read) (inspect read)
  fetch : ∀ h, Delivers R holds (fetch h) (fetch h)
  sequence : Delivers R (fun word => ∀ record, word = some record → holds record)
    (Routine.inspect fun _ words => .ok (words.classify SpecialForm.sequence.word))
    (Routine.inspect fun _ words => .ok (words.classify SpecialForm.sequence.word))
  form : ∀ {name}, holds (.keyword name) → Delivers R offers
    (Routine.inspect fun _ words => words.form name)
    (Routine.inspect fun _ words => words.form name)
  operator : ∀ {name}, holds (.operator name) → R Operator
    (Routine.inspect fun _ words => words.operator name)
    (Routine.inspect fun _ words => words.operator name)
  allocate : ∀ {record}, holds record → R Handle (allocate record) (allocate record)
  currentScope : R Handle currentScope currentScope
  lookupSymbol : ∀ symbol, R Handle (lookupSymbol symbol) (lookupSymbol symbol)
  bindSymbol : ∀ symbol value, R Unit (bindSymbol symbol value) (bindSymbol symbol value)
  assignSymbol : offers .assignment → ∀ symbol value,
    R Unit (assignSymbol symbol value) (assignSymbol symbol value)

/-- Where every record and every special form will do, nothing is asked beyond respect. -/
theorem Respectful.governed {R : (α : Type) → Routine α → Routine α → Prop}
    (law : Respectful R) : Governed (fun _ => True) (fun _ => True) R where
  plain _ _ := trivial
  pure := law.pure
  bind := law.bind
  inspect permitted := law.inspect fun store words =>
    (permitted store words).mono fun _ => Store.isPlain_of_permits
  fetch h := by
    intro β next next' tail
    have plain (store : Store) : FailsPlainly (store.heap.get h) :=
      (store.permits_get h).mono fun _ => Store.isPlain_of_permits
    exact law.bind (law.inspect fun store _ => plain store) fun record => tail record trivial
  sequence := by
    intro β next next' tail
    exact law.bind (law.inspect fun _ _ => .ok _) fun word => tail word fun _ _ => trivial
  form := by
    intro name _ β next next' tail
    have plain (words : Vocabulary) : FailsPlainly (words.form name) :=
      words.form_failsWithin fun _ => rfl
    exact law.bind (law.inspect fun _ words => plain words) fun form => tail form trivial
  operator _ := law.inspect fun _ words => words.operator_failsWithin fun _ => rfl
  allocate _ := law.allocate _
  currentScope := law.currentScope
  lookupSymbol := law.lookupSymbol
  bindSymbol := law.bindSymbol
  assignSymbol _ := law.assignSymbol

/-- Related nested calls: the same expression is evaluated, the same moment is checked, a step is
counted, and related bodies run in a new frame are related again. -/
structure RelatedCalls (R : (α : Type) → Routine α → Routine α → Prop) (calls calls' : Calls) :
    Prop where
  evaluate : ∀ expr, R Handle (calls.evaluate expr) (calls'.evaluate expr)
  reach : ∀ moment, R Unit (calls.reach moment) (calls'.reach moment)
  tick : R Unit calls.tick calls'.tick
  within : ∀ {α : Type} (parent : Handle) {body body' : Routine α}, R α body body' →
    R α (calls.within parent body) (calls'.within parent body')

variable {R : (α : Type) → Routine α → Routine α → Prop} {holds : Record → Prop}
  {offers : SpecialForm → Prop} {α : Type}

namespace Governed

/-- A failure that any reading may end in is related to itself. -/
theorem fail (law : Governed holds offers R) {failure : Failure}
    (ordinary : failure.isOrdinary = true) :
    R α (throw failure) (throw failure) := by
  let read : Store → Vocabulary → Except Failure α := fun _ _ => .error failure
  have reading : R α (Routine.inspect read) (Routine.inspect read) :=
    law.inspect fun _ _ => .error (Store.permits_of_isOrdinary ordinary)
  exact reading

theorem nil (law : Governed holds offers R) : R Handle nil nil := law.inspect fun _ _ => .ok _

theorem heapSize (law : Governed holds offers R) : R Nat heapSize heapSize :=
  law.inspect fun _ _ => .ok _

theorem elements (law : Governed holds offers R) (h : Handle) :
    R (List Handle) (elements h) (elements h) :=
  law.inspect fun store _ => .of_ordinary (store.heap.elements_failsOrdinarily h)

theorem symbolName (law : Governed holds offers R) (h : Handle) :
    R String (symbolName h) (symbolName h) :=
  law.inspect fun store _ => .of_ordinary (store.symbols.name_failsOrdinarily h)

theorem describe (law : Governed holds offers R) (h : Handle) :
    R String (describe h) (describe h) :=
  law.inspect fun store _ => store.permits_describe h

theorem expectInteger (law : Governed holds offers R) (h : Handle) :
    R Int (expectInteger h) (expectInteger h) := by
  apply law.fetch h
  intro record _
  cases record with
  | integer value => exact law.pure value
  | _ => exact law.bind (law.describe h) fun _ => law.fail rfl

theorem expectCount (law : Governed holds offers R) (name : String) (count : Int) (args : Handle) :
    R (List Handle) (expectCount name count args) (expectCount name count args) := by
  apply law.bind (law.elements args)
  intro items
  split
  · exact law.fail rfl
  · exact law.pure items

/-- What is done alike to each item is done alike to a list. -/
theorem mapM {β : Type} (law : Governed holds offers R) {f : β → Routine α}
    (each : ∀ item, R α (f item) (f item))
    (items : List β) : R (List α) (items.mapM f) (items.mapM f) := by
  induction items with
  | nil => exact law.pure []
  | cons item rest ih =>
    rw [List.mapM_cons]
    exact law.bind (each item) fun _ => law.bind ih fun _ => law.pure _

end Governed

namespace RelatedCalls

variable {calls calls' : Calls}

theorem describe (related : RelatedCalls R calls calls') (law : Governed holds offers R)
    (h : Handle) :
    R String (calls.describe h) (calls'.describe h) :=
  law.bind (related.reach _) fun _ => law.describe h

/-- A refusal that describes an object is related to itself. -/
theorem refuse (related : RelatedCalls R calls calls') (law : Governed holds offers R) (h : Handle)
    {cause : String → Failure} (ordinary : ∀ shown, (cause shown).isOrdinary = true) :
    R α (do throw (cause (← calls.describe h))) (do throw (cause (← calls'.describe h))) :=
  law.bind (related.describe law h) fun shown => law.fail (ordinary shown)

theorem allocate (related : RelatedCalls R calls calls') (law : Governed holds offers R)
    {record : Record} (held : holds record) :
    R Handle (calls.allocate record) (calls'.allocate record) :=
  law.bind (related.reach _) fun _ => law.allocate held

/-- Records that are no words may be stored under every law. -/
theorem allocatePlain (related : RelatedCalls R calls calls') (law : Governed holds offers R)
    {record : Record} (plain : record.isWord = false) :
    R Handle (calls.allocate record) (calls'.allocate record) :=
  related.allocate law (law.plain record plain)

theorem bindSymbol (related : RelatedCalls R calls calls') (law : Governed holds offers R)
    (symbol value : Handle) :
    R Unit (calls.bindSymbol symbol value) (calls'.bindSymbol symbol value) :=
  law.bind (related.reach _) fun _ => law.bindSymbol symbol value

theorem assignSymbol (related : RelatedCalls R calls calls') (law : Governed holds offers R)
    (offered : offers .assignment) (symbol value : Handle) :
    R Unit (calls.assignSymbol symbol value) (calls'.assignSymbol symbol value) :=
  law.bind (related.reach _) fun _ => law.assignSymbol offered symbol value

theorem allocateList (related : RelatedCalls R calls calls') (law : Governed holds offers R)
    (rest : Handle) (items : List Handle) :
    R Handle (calls.allocateList rest items) (calls'.allocateList rest items) := by
  induction items generalizing rest with
  | nil => exact law.pure rest
  | cons item earlier ih => exact law.bind (related.allocatePlain law rfl) fun _ => ih _

/-! ### Procedures -/

/-- Parameters are bound one after another, by recursion on the steps that are left. -/
theorem bindFrom (related : RelatedCalls R calls calls') (law : Governed holds offers R)
    (steps : Nat) (params args : Handle) : R Unit (calls.bindFrom steps params args)
      (calls'.bindFrom steps params args) := by
  induction steps generalizing params args with
  | zero => exact law.fail rfl
  | succ steps ih =>
    apply law.fetch params
    intro record _
    cases record with
    | pair car cdr =>
      apply law.fetch car
      intro parameter _
      cases parameter with
      | symbol symbol =>
        apply law.fetch args
        intro supplied _
        cases supplied with
        | pair argument rest =>
          exact law.bind (related.bindSymbol law symbol argument) fun _ => ih cdr rest
        | _ => exact law.fail rfl
      | _ => exact related.refuse law car fun _ => rfl
    | symbol symbol => exact related.bindSymbol law symbol args
    | nil => exact law.pure ()
    | _ => exact related.refuse law params fun _ => rfl

theorem bindParameters (related : RelatedCalls R calls calls') (law : Governed holds offers R)
    (params args : Handle) :
    R Unit (calls.bindParameters params args) (calls'.bindParameters params args) := by
  apply law.bind (related.reach _)
  intro _
  apply law.bind (law.inspect fun store _ =>
    .of_ordinary (store.heap.parameterShape_failsOrdinarily params))
  rintro ⟨required, variadic⟩
  apply law.bind (law.elements args)
  intro items
  dsimp only
  split
  · exact law.fail rfl
  · exact law.bind law.heapSize fun _ => related.bindFrom law _ params args

theorem sequenced (related : RelatedCalls R calls calls') (law : Governed holds offers R)
    (form : String) (forms : Handle) :
    R Handle (calls.sequenced form forms) (calls'.sequenced form forms) := by
  apply law.bind (law.elements forms)
  intro items
  match items with
  | [] => exact law.nil
  | [only] => exact law.pure only
  | _ :: _ :: _ =>
    apply law.sequence
    intro word held
    cases word with
    | none => exact law.fail rfl
    | some word =>
      apply law.bind (related.allocate law (held word rfl))
      intro head
      exact related.allocatePlain law rfl

/-- The parameters are checked and the body forms are joined alike. -/
theorem makeProcedure (related : RelatedCalls R calls calls') (law : Governed holds offers R)
    (form : String) (params forms : Handle) :
    R Handle (calls.makeProcedure form params forms) (calls'.makeProcedure form params forms) := by
  apply law.bind (law.inspect fun store _ => store.permits_checkParameters form params)
  intro _
  apply law.bind (related.sequenced law form forms)
  intro _
  exact law.bind law.currentScope fun _ => related.allocatePlain law rfl

/-- A call binds the parameters in a new scope and evaluates the body there. -/
theorem applyProcedure (related : RelatedCalls R calls calls') (law : Governed holds offers R)
    (params body scope args : Handle) :
    R Handle (calls.applyProcedure params body scope args)
      (calls'.applyProcedure params body scope args) :=
  related.within scope <|
    law.bind (related.bindParameters law params args) fun _ => related.evaluate body

/-- The arguments are evaluated from left to right. -/
theorem evaluateEach (related : RelatedCalls R calls calls') (law : Governed holds offers R)
    (steps : Nat) (h : Handle) (values : List Handle) :
    R (List Handle) (calls.evaluateEach steps h values) (calls'.evaluateEach steps h values) := by
  induction steps generalizing h values with
  | zero => exact law.fail rfl
  | succ steps ih =>
    refine law.bind (related.reach _) fun _ => law.fetch h ?_
    intro record _
    cases record with
    | pair car cdr => exact law.bind (related.evaluate car) fun _ => ih _ _
    | nil => exact law.pure values
    | _ => exact law.fail rfl

theorem evaluateArguments (related : RelatedCalls R calls calls') (law : Governed holds offers R)
    (args : Handle) :
    R Handle (calls.evaluateArguments args) (calls'.evaluateArguments args) := by
  refine law.bind law.heapSize fun _ => law.bind (related.evaluateEach law _ args []) fun _ => ?_
  exact law.bind law.nil fun _ => related.allocateList law _ _

/-! ### Special forms and operators -/

theorem evaluateLast (related : RelatedCalls R calls calls') (law : Governed holds offers R)
    (result : Handle) (exprs : List Handle) :
    R Handle (calls.evaluateLast result exprs) (calls'.evaluateLast result exprs) := by
  induction exprs generalizing result with
  | nil => exact law.pure result
  | cons expr rest ih => exact law.bind (related.evaluate expr) fun _ => ih _

theorem branch (related : RelatedCalls R calls calls') (law : Governed holds offers R)
    (test consequent : Handle) (alternative : Option Handle) :
    R Handle (SpecialForm.branch calls test consequent alternative)
      (SpecialForm.branch calls' test consequent alternative) := by
  apply law.bind (related.evaluate test)
  intro value
  refine law.bind (related.reach _) fun _ => law.fetch value fun verdict _ => ?_
  split
  · exact related.evaluate consequent
  · cases alternative with
    | some expr => exact related.evaluate expr
    | none => exact law.nil

theorem runQuotation (law : Governed holds offers R) (rest : Handle) :
    R Handle (SpecialForm.runQuotation rest) (SpecialForm.runQuotation rest) := by
  apply law.bind (law.elements rest)
  intro operands
  match operands with
  | [datum] => exact law.pure datum
  | [] | _ :: _ :: _ => exact law.fail rfl

theorem runConditional (related : RelatedCalls R calls calls') (law : Governed holds offers R)
    (rest : Handle) :
    R Handle (SpecialForm.runConditional calls rest) (SpecialForm.runConditional calls' rest) := by
  apply law.bind (law.elements rest)
  intro operands
  match operands with
  | [test, consequent] => exact related.branch law test consequent none
  | [test, consequent, alternative] => exact related.branch law test consequent (some alternative)
  | [] | [_] | _ :: _ :: _ :: _ :: _ => exact law.fail rfl

theorem runAssignment (related : RelatedCalls R calls calls') (law : Governed holds offers R)
    (offered : offers .assignment) (rest : Handle) :
    R Handle (SpecialForm.runAssignment calls rest) (SpecialForm.runAssignment calls' rest) := by
  apply law.bind (law.elements rest)
  intro operands
  match operands with
  | [target, expr] =>
    apply law.fetch target
    intro record _
    cases record with
    | symbol symbol =>
      apply law.bind (related.evaluate expr)
      intro value
      exact law.bind (related.assignSymbol law offered symbol value) fun _ => law.pure value
    | _ => exact related.refuse law target fun _ => rfl
  | [] | [_] | _ :: _ :: _ :: _ => exact law.fail rfl

theorem defineProcedure (related : RelatedCalls R calls calls') (law : Governed holds offers R)
    (rest name params : Handle) :
    R Handle (SpecialForm.defineProcedure calls rest name params)
      (SpecialForm.defineProcedure calls' rest name params) := by
  apply law.fetch name
  intro record _
  cases record with
  | symbol symbol =>
    apply law.fetch rest
    intro operands _
    cases operands with
    | pair first body =>
      apply law.bind (related.makeProcedure law _ params body)
      intro value
      exact law.bind (related.bindSymbol law symbol value) fun _ => law.pure name
    | _ => exact law.fail rfl
  | _ => exact related.refuse law name fun _ => rfl

theorem runDefinition (related : RelatedCalls R calls calls') (law : Governed holds offers R)
    (rest : Handle) :
    R Handle (SpecialForm.runDefinition calls rest) (SpecialForm.runDefinition calls' rest) := by
  apply law.bind (law.elements rest)
  intro items
  cases items with
  | nil => exact law.fail rfl
  | cons target others =>
    apply law.fetch target
    intro record _
    cases record with
    | pair name params => exact related.defineProcedure law rest name params
    | symbol symbol =>
      match others with
      | [expr] =>
        apply law.bind (related.evaluate expr)
        intro value
        exact law.bind (related.bindSymbol law symbol value) fun _ => law.pure target
      | [] | _ :: _ :: _ => exact law.fail rfl
    | _ => exact related.refuse law target fun _ => rfl

theorem runAbstraction (related : RelatedCalls R calls calls') (law : Governed holds offers R)
    (rest : Handle) :
    R Handle (SpecialForm.runAbstraction calls rest) (SpecialForm.runAbstraction calls' rest) := by
  apply law.fetch rest
  intro record _
  cases record with
  | pair params body => exact related.makeProcedure law _ params body
  | _ => exact law.fail rfl

theorem runSequence (related : RelatedCalls R calls calls') (law : Governed holds offers R)
    (rest : Handle) :
    R Handle (SpecialForm.runSequence calls rest) (SpecialForm.runSequence calls' rest) :=
  law.bind (law.elements rest) fun _ => law.bind law.nil fun _ => related.evaluateLast law _ _

/-- The forms one by one. Only an assignment needs to be offered. -/
theorem runForm (related : RelatedCalls R calls calls') (law : Governed holds offers R)
    {form : SpecialForm} (offered : offers form) (rest : Handle) :
    R Handle (form.run calls rest) (form.run calls' rest) := by
  apply law.bind (related.reach _)
  intro _
  cases form with
  | quotation => exact runQuotation law rest
  | conditional => exact related.runConditional law rest
  | assignment => exact related.runAssignment law offered rest
  | definition => exact related.runDefinition law rest
  | abstraction => exact related.runAbstraction law rest
  | sequence => exact related.runSequence law rest

/-- The operators differ in what they compute only. -/
theorem runOperator (related : RelatedCalls R calls calls') (law : Governed holds offers R)
    (operator : Operator) (args : Handle) :
    R Handle (operator.run calls args) (operator.run calls' args) := by
  refine law.bind (related.reach _) fun _ => law.bind (law.expectCount _ 2 args) fun items => ?_
  exact law.bind (law.mapM law.expectInteger items) fun _ => related.allocatePlain law rfl

/-- A combination evaluates its head and goes on by what it finds there. -/
theorem combination (related : RelatedCalls R calls calls') (law : Governed holds offers R)
    (head rest : Handle) :
    R Handle (calls.combination head rest) (calls'.combination head rest) := by
  apply law.fetch head
  intro record held
  cases record with
  | keyword name => exact law.form held fun form offered => related.runForm law offered rest
  | operator name =>
    apply law.bind (law.operator held)
    intro operator
    exact law.bind (related.evaluateArguments law rest) fun args =>
      related.runOperator law operator args
  | symbol symbol =>
    refine law.bind (law.lookupSymbol symbol) fun target => law.fetch target ?_
    intro callee _
    cases callee with
    | procedure params body scope =>
      exact law.bind (related.evaluateArguments law rest) fun args =>
        related.applyProcedure law params body scope args
    | _ => exact law.bind (law.symbolName symbol) fun _ => related.refuse law target fun _ => rfl
  | _ => exact related.refuse law head fun _ => rfl

/-- What an evaluation does once its step is counted. -/
theorem dispatch (related : RelatedCalls R calls calls') (law : Governed holds offers R)
    (expr : Handle) :
    R Handle
      (do match ← fetch expr with
        | .symbol symbol => lookupSymbol symbol
        | .pair head rest => calls.combination head rest
        | _ => return expr)
      (do match ← fetch expr with
        | .symbol symbol => lookupSymbol symbol
        | .pair head rest => calls'.combination head rest
        | _ => return expr) := by
  apply law.fetch expr
  intro record _
  cases record with
  | symbol symbol => exact law.lookupSymbol symbol
  | pair head rest => exact related.combination law head rest
  | _ => exact law.pure expr

/-- One step of evaluation follows the kind of the record that stands at the expression. -/
theorem step (related : RelatedCalls R calls calls') (law : Governed holds offers R)
    (expr : Handle) :
    R Handle (calls.step expr) (calls'.step expr) :=
  law.bind (related.reach _) fun _ => law.bind related.tick fun _ => related.dispatch law expr

end RelatedCalls

/-- `R` holds of what evaluation itself does on `stack` on the left and with other checks on the
right. -/
structure RelatedMachine (stack : EvalStack) (check : Nat → Moment → Routine Unit)
    (exhausted : Handle → Routine Handle) (R : (α : Type) → Routine α → Routine α → Prop) :
    Prop where
  reach : ∀ room moment, R Unit (stack.reach room moment) (check room moment)
  exhausted : ∀ expr, R Handle (throw .stackExhausted) (exhausted expr)
  tick : ∀ (room : Nat) {calls calls' : Calls}, calls.reach = stack.reach room →
    calls'.reach = check room → R Unit calls.tick calls'.tick
  within : ∀ (room : Nat) {calls calls' : Calls}, calls.reach = stack.reach room →
    calls'.reach = check room → ∀ {α : Type} (parent : Handle) {body body' : Routine α},
      R α body body' → R α (calls.within parent body) (calls'.within parent body')

/-- `R` is respected by evaluation on `stack` on the left and by evaluation with other checks on
the right. -/
structure EvalRelation (stack : EvalStack) (check : Nat → Moment → Routine Unit)
    (exhausted : Handle → Routine Handle) (R : (α : Type) → Routine α → Routine α → Prop) : Prop
    extends Respectful R, RelatedMachine stack check exhausted R

/-- `R` governs evaluation on `stack` on the left and evaluation with other checks on the right. -/
structure GovernedEvaluation (stack : EvalStack) (check : Nat → Moment → Routine Unit)
    (exhausted : Handle → Routine Handle) (holds : Record → Prop) (offers : SpecialForm → Prop)
    (R : (α : Type) → Routine α → Routine α → Prop) : Prop
    extends Governed holds offers R, RelatedMachine stack check exhausted R

section Evaluations

variable {stack : EvalStack} {check : Nat → Moment → Routine Unit}
  {exhausted : Handle → Routine Handle}

namespace GovernedEvaluation

/-- Evaluations of one expression are related. The induction is on the room that is left: what is
evaluated one call deeper is related already. -/
theorem evaluate (law : GovernedEvaluation stack check exhausted holds offers R) (room : Nat)
    (expr : Handle) :
    R Handle (evaluate stack room expr) (evaluateWith check exhausted room expr) := by
  induction room generalizing expr with
  | zero => exact law.exhausted expr
  | succ room ih =>
    have related : RelatedCalls R (stack.callsWithin room)
        ⟨evaluateWith check exhausted room, check room⟩ :=
      ⟨ih, law.reach room, law.tick room rfl rfl, law.within room rfl rfl⟩
    exact related.step law.toGoverned expr

/-- The nested calls that evaluation makes are related. -/
theorem calls (law : GovernedEvaluation stack check exhausted holds offers R) (room : Nat) :
    RelatedCalls R (stack.callsWithin room) ⟨evaluateWith check exhausted room, check room⟩ :=
  ⟨law.evaluate room, law.reach room, law.tick room rfl rfl, law.within room rfl rfl⟩

end GovernedEvaluation

namespace EvalRelation

variable (law : EvalRelation stack check exhausted R) (room : Nat)
include law

/-- The rules of a relation govern evaluation without any condition on words. -/
theorem governed :
    GovernedEvaluation stack check exhausted (fun _ => True) (fun _ => True) R :=
  ⟨law.toRespectful.governed, law.toRelatedMachine⟩

theorem evaluate (expr : Handle) :
    R Handle (evaluate stack room expr) (evaluateWith check exhausted room expr) :=
  law.governed.evaluate room expr

/-- The nested calls that evaluation makes are related. -/
theorem calls :
    RelatedCalls R (stack.callsWithin room) ⟨evaluateWith check exhausted room, check room⟩ :=
  law.governed.calls room

end EvalRelation

end Evaluations

end ScopedLisp
