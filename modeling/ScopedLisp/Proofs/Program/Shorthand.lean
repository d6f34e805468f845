import ScopedLisp.Proofs.Eval.Forms
import ScopedLisp.Proofs.Program.Reachable
import ScopedLisp.Proofs.Program.StepLimit

/-!
# The shorthand for defining procedures

`(define (name . params) body ...)` is short for `(define name (lambda params body ...))`. The first
makes the procedure itself, the second evaluates an expression that makes it. Both ways end alike:
the longer one takes a step more, and where it refuses the parameters it says so of `lambda` and not
of `define`.
-/

namespace ScopedLisp

open Routine

/-! ### Endings that differ in the form they name -/

/-- The failures are the same, or the one says of `define` what the other says of `lambda`. -/
inductive Failure.SameButForm : Failure → Failure → Prop where
  | same (failure : Failure) : SameButForm failure failure
  | named (reason : Unsupported) :
      SameButForm (.unsupportedForm SpecialForm.definition.word reason)
        (.unsupportedForm SpecialForm.abstraction.word reason)

/-- The failure is not that the host's stack is used up. -/
def Failure.sparesStack (failure : Failure) : Bool := failure != .stackExhausted

theorem Failure.sparesStack_of_isPlain {failure : Failure} (plain : failure.isPlain = true) :
    failure.sparesStack = true := by
  cases failure with
  | stackExhausted => cases plain
  | _ => rfl

theorem Scopes.searchSparesStack (scopes : Scopes) : AllowsSearch Failure.sparesStack scopes where
  ordinary plain := Failure.sparesStack_of_isPlain (Failure.isPlain_of_isOrdinary plain)
  empty _ := rfl

/-- The second ending has the same value or failure as the first, but for the form that a failure
may name, and leaves the same session, but for `more` further steps. The host's stack has nothing
to do with it. -/
inductive EndsAlike (more : Nat) {α : Type} : Ending α → Ending α → Prop where
  | ok (value : α) (left : Session) :
    EndsAlike more (.ok value left) (.ok value (left.further more))
  | error {failure failure' : Failure} (left : Session) (same : failure.SameButForm failure')
      (spares : failure.sparesStack = true) :
      EndsAlike more (.error failure left) (.error failure' (left.further more))

/-- What is read is the same, but for the form that a failure may name. -/
inductive ReadsAlike {α : Type} : Except Failure α → Except Failure α → Prop where
  | same (result : Except Failure α) : ReadsAlike result result
  | error {failure failure' : Failure} (same : failure.SameButForm failure') :
      ReadsAlike (.error failure) (.error failure')

namespace ReadsAlike

variable {α β : Type}

theorem bind {first first' : Except Failure α} {next next' : α → Except Failure β}
    (head : ReadsAlike first first') (tail : ∀ value, ReadsAlike (next value) (next' value)) :
    ReadsAlike (first >>= next) (first' >>= next') := by
  cases head with
  | same =>
    cases first with
    | ok value => exact tail value
    | error failure => exact .same _
  | error same => exact .error same

variable (store : Store)

theorem requireNew (seen : List Handle) (symbol : Handle) :
    ReadsAlike (store.requireNew SpecialForm.definition.word seen symbol)
      (store.requireNew SpecialForm.abstraction.word seen symbol) := by
  unfold Store.requireNew
  split
  · exact (same _).bind fun name => .error (.named (.duplicateParameter name))
  · exact .same _

theorem checkParametersFrom (steps : Nat) (seen : List Handle) (params : Handle) :
    ReadsAlike (store.checkParametersFrom SpecialForm.definition.word steps seen params)
      (store.checkParametersFrom SpecialForm.abstraction.word steps seen params) := by
  induction steps generalizing seen params with
  | zero => exact .same _
  | succ steps ih =>
    unfold Store.checkParametersFrom
    apply (same (store.heap.get params)).bind
    intro record
    cases record with
    | symbol symbol => exact requireNew store seen symbol
    | pair car cdr =>
      apply (same (store.heap.get car)).bind
      intro parameter
      cases parameter with
      | symbol symbol => exact (requireNew store seen symbol).bind fun _ => ih (symbol :: seen) cdr
      | _ => exact .same _
    | _ => exact .same _

theorem checkParameters (params : Handle) :
    ReadsAlike (store.checkParameters SpecialForm.definition.word params)
      (store.checkParameters SpecialForm.abstraction.word params) :=
  checkParametersFrom store _ [] params

end ReadsAlike

namespace EndsAlike

variable {more : Nat} {α β : Type} {session : Session}

theorem bind {first first' : Routine α} {next next' : α → Routine β} {later : Session}
    (head : EndsAlike more (first session) (first' later))
    (tail : ∀ value mid, EndsAlike more (next value mid) (next' value (mid.further more))) :
    EndsAlike more ((first >>= next) session) ((first' >>= next') later) := by
  generalize result : first session = ending at head
  generalize result' : first' later = ending' at head
  cases head with
  | ok value mid =>
    rw [bind_ok result, bind_ok result']
    exact tail value mid
  | error left same spares =>
    rw [bind_error result, bind_error result']
    exact .error left same spares

/-- What is read off the session and does not depend on the steps. -/
theorem reading {result result' : Except Failure α} (alike : ReadsAlike result result')
    (spares : FailsWithin Failure.sparesStack result) :
    EndsAlike more ((ofExcept result : Routine α) session)
      ((ofExcept result' : Routine α) (session.further more)) := by
  cases alike with
  | same =>
    cases result with
    | ok value => exact .ok value session
    | error failure => exact .error session (.same failure) (spares failure rfl)
  | error same => exact .error session same (spares _ rfl)

theorem inspect {read read' : Store → Vocabulary → Except Failure α}
    (alike : ReadsAlike (read session.store session.vocabulary)
      (read' session.store session.vocabulary))
    (plain : FailsPlainly (read session.store session.vocabulary)) :
    EndsAlike more (inspect read session) (Routine.inspect read' (session.further more)) :=
  reading alike (plain.mono fun _ => Failure.sparesStack_of_isPlain)

theorem inspect_same {read : Store → Vocabulary → Except Failure α}
    (plain : FailsPlainly (read session.store session.vocabulary)) :
    EndsAlike more (Routine.inspect read session) (Routine.inspect read (session.further more)) :=
  inspect (.same _) plain

theorem elements (forms : Handle) :
    EndsAlike more (elements forms session) (Routine.elements forms (session.further more)) :=
  inspect_same ((session.store.heap.elements_failsOrdinarily forms).mono fun _ =>
    Failure.isPlain_of_isOrdinary)

theorem currentScope :
    EndsAlike more (currentScope session) (Routine.currentScope (session.further more)) :=
  reading (.same session.scopes.current)
    (Scopes.current_failsWithin (Scopes.searchSparesStack session.scopes))

theorem bindSymbol (symbol value : Handle) :
    EndsAlike more (bindSymbol symbol value session)
      (Routine.bindSymbol symbol value (session.further more)) := by
  cases found : session.scopes.currentPlace with
  | ok place =>
    have binds : Routine.bindSymbol symbol value (session.further more) = _ := bindSymbol_ok found
    rw [bindSymbol_ok found, binds]
    exact .ok () { session with scopes := session.scopes.write place symbol value }
  | error failure =>
    have fails : Routine.bindSymbol symbol value (session.further more) = _ :=
      bindSymbol_error found
    rw [bindSymbol_error found, fails]
    exact .error session (.same failure)
      (Scopes.currentPlace_failsWithin (Scopes.searchSparesStack session.scopes) failure found)

section Calls

variable {calls calls' : Calls} (calm : calls.Calm) (calm' : calls'.Calm)
include calm calm'

/-- A check of the host's stack in front of a routine. -/
theorem reach {next next' : Routine α} (moment : Moment)
    (alike : EndsAlike more (next session) (next' (session.further more))) :
    EndsAlike more ((calls.reach moment >>= fun _ => next) session)
      ((calls'.reach moment >>= fun _ => next') (session.further more)) := by
  rw [bind_ok (calm moment session), bind_ok (calm' moment (session.further more))]
  exact alike

theorem allocate (record : Record) :
    EndsAlike more (calls.allocate record session)
      (calls'.allocate record (session.further more)) :=
  reach calm calm' .allocating (.ok _ _)

theorem describe (h : Handle) :
    EndsAlike more (calls.describe h session) (calls'.describe h (session.further more)) :=
  reach calm calm' .describing
    (inspect_same fun _ failed =>
      Store.isPlain_of_permits (session.store.permits_describe h _ failed))

theorem sequenced (forms : Handle) :
    EndsAlike more (calls.sequenced SpecialForm.definition.word forms session)
      (calls'.sequenced SpecialForm.abstraction.word forms (session.further more)) := by
  apply (elements forms).bind
  intro items mid
  match items with
  | [] => exact .ok _ _
  | [only] => exact .ok only mid
  | _ :: _ :: _ =>
    apply (inspect_same (.ok _)).bind
    intro found mid
    cases found with
    | some word =>
      apply (allocate calm calm' word).bind
      exact fun head mid => allocate calm calm' (.pair head forms)
    | none => exact .error mid (.named .sequenceUnregistered) rfl

theorem makeProcedure (params forms : Handle) :
    EndsAlike more (calls.makeProcedure SpecialForm.definition.word params forms session)
      (calls'.makeProcedure SpecialForm.abstraction.word params forms (session.further more)) := by
  have checked : EndsAlike more
      (Routine.inspect (fun store _ => store.checkParameters SpecialForm.definition.word params)
        session)
      (Routine.inspect (fun store _ => store.checkParameters SpecialForm.abstraction.word params)
        (session.further more)) :=
    inspect (.checkParameters session.store params) fun _ failed =>
      Store.isPlain_of_permits (session.store.permits_checkParameters _ params _ failed)
  apply checked.bind
  intro _ mid
  apply (sequenced calm calm' forms).bind
  intro body mid
  apply currentScope.bind
  intro scope mid
  exact allocate calm calm' (.procedure params body scope)

end Calls

end EndsAlike

/-! ### The two ways to define a procedure -/

namespace Session

/-- At the expression stands `(define (name . params) . body)`. -/
def IsShorthand (session : Session) (expr name params body : Handle) : Prop :=
  ∃ rest target, session.IsForm expr .definition rest ∧
    session.store.heap.get rest = .ok (.pair target body) ∧
    session.store.heap.get target = .ok (.pair name params)

/-- At the expression stands `(define name (lambda params . body))`. -/
def IsLonghand (session : Session) (expr name params body : Handle) : Prop :=
  ∃ rest procedure operands, session.IsForm expr .definition rest ∧
    session.store.heap.elements rest = .ok [name, procedure] ∧
    session.IsForm procedure .abstraction operands ∧
    session.store.heap.get operands = .ok (.pair params body)

end Session

section Evaluation

variable {session : Session} {total room : Nat} {expr name params body : Handle}

theorem evaluate_of_definition (budget : session.HasStepLeft) {rest : Handle}
    (stands : session.IsForm expr .definition rest) :
    evaluate (.withRoom total) (room + 1) expr session =
      SpecialForm.runDefinition ((CallStack.withRoom total : EvalStack).callsWithin room) rest
        session.counted := by
  rw [evaluate_of_form budget stands]
  unfold SpecialForm.run
  exact bind_ok (calm_withRoom total room .dispatching session.counted)

theorem evaluate_of_abstraction (budget : session.HasStepLeft) {rest : Handle}
    (stands : session.IsForm expr .abstraction rest)
    (operands : session.store.heap.get rest = .ok (.pair params body)) :
    evaluate (.withRoom total) (room + 1) expr session =
      ((CallStack.withRoom total : EvalStack).callsWithin room).makeProcedure
        SpecialForm.abstraction.word params body session.counted := by
  have fetched : fetch rest session.counted = .ok (.pair params body) session.counted :=
    inspect_ok operands
  rw [evaluate_of_form budget stands]
  unfold SpecialForm.run
  rw [bind_ok (calm_withRoom total room .dispatching session.counted)]
  dsimp only
  rw [SpecialForm.runAbstraction, bind_ok fetched]

theorem evaluate_of_shorthand (total room : Nat) (budget : session.HasStepLeft)
    {forms : List Handle}
    (proper : session.store.heap.elements body = .ok forms)
    (shorthand : session.IsShorthand expr name params body) :
    ∃ rest target, session.store.heap.get rest = .ok (.pair target body) ∧
      evaluate (.withRoom total) (room + 1) expr session =
        SpecialForm.defineProcedure ((CallStack.withRoom total : EvalStack).callsWithin room)
          rest name params session.counted := by
  obtain ⟨rest, target, stands, link, named⟩ := shorthand
  obtain ⟨last, chain⟩ := Heap.elements_eq_ok_iff.mp proper
  have operands : elements rest session.counted = .ok (target :: forms) session.counted :=
    inspect_ok (Heap.elements_eq_ok_iff.mpr ⟨last, .link link chain⟩)
  have fetched : fetch target session.counted = .ok (.pair name params) session.counted :=
    inspect_ok named
  refine ⟨rest, target, link, ?_⟩
  rw [evaluate_of_definition budget stands, SpecialForm.runDefinition, bind_ok operands]
  dsimp only
  rw [bind_ok fetched]

/-- If the name is a symbol, the longer way takes a step more, since an expression is evaluated for
the procedure. -/
theorem defined_alike {short long symbol : Handle} {forms : List Handle}
    (unlimited : session.stepLimit = 0)
    (symbolic : session.store.heap.get name = .ok (.symbol symbol))
    (proper : session.store.heap.elements body = .ok forms)
    (shorthand : session.IsShorthand short name params body)
    (longhand : session.IsLonghand long name params body) :
    EndsAlike 1 (evaluate (.withRoom 1) 1 short session)
      (evaluate (.withRoom 2) 2 long session) := by
  have named : fetch name session.counted = .ok (.symbol symbol) session.counted :=
    inspect_ok symbolic
  obtain ⟨rest, target, link, runs⟩ := evaluate_of_shorthand 1 0 (.inl unlimited) proper shorthand
  obtain ⟨rest', procedure, operands, stands, listed, inner, parts⟩ := longhand
  have fetched : fetch rest session.counted = .ok (.pair target body) session.counted :=
    inspect_ok link
  have given : elements rest' session.counted = .ok [name, procedure] session.counted :=
    inspect_ok listed
  rw [runs, SpecialForm.defineProcedure, bind_ok named]
  dsimp only
  rw [bind_ok fetched, evaluate_of_definition (.inl unlimited) stands, SpecialForm.runDefinition,
    bind_ok given]
  dsimp only
  rw [bind_ok named]
  dsimp only
  have made : ((CallStack.withRoom 2 : EvalStack).callsWithin 1).evaluate procedure
      session.counted = ((CallStack.withRoom 2 : EvalStack).callsWithin 0).makeProcedure
        SpecialForm.abstraction.word params body (session.counted.further 1) :=
    evaluate_of_abstraction (.inl unlimited) inner parts
  apply EndsAlike.bind
  · rw [made]
    exact .makeProcedure (calm_withRoom 1 0) (calm_withRoom 2 0) params body
  · intro value mid
    apply EndsAlike.bind
    · exact .reach (calm_withRoom 1 0) (calm_withRoom 2 1) .binding (.bindSymbol symbol value)
    · exact fun _ last => .ok name last

/-- Neither way gets beyond a name that is no symbol. -/
theorem refused_alike {short long : Handle} {forms : List Handle}
    (unlimited : session.stepLimit = 0)
    (single : ∀ car cdr, session.store.heap.get name ≠ .ok (.pair car cdr))
    (unsymbolic : ∀ symbol, session.store.heap.get name ≠ .ok (.symbol symbol))
    (proper : session.store.heap.elements body = .ok forms)
    (shorthand : session.IsShorthand short name params body)
    (longhand : session.IsLonghand long name params body) :
    EndsAlike 0 (evaluate (.withRoom 1) 1 short session)
      (evaluate (.withRoom 2) 2 long session) := by
  obtain ⟨rest, target, -, runs⟩ := evaluate_of_shorthand 1 0 (.inl unlimited) proper shorthand
  obtain ⟨rest', procedure, operands, stands, listed, -, -⟩ := longhand
  have given : elements rest' session.counted = .ok [name, procedure] session.counted :=
    inspect_ok listed
  rw [runs, SpecialForm.defineProcedure, evaluate_of_definition (.inl unlimited) stands,
    SpecialForm.runDefinition, bind_ok given]
  dsimp only
  cases found : session.store.heap.get name with
  | error failure =>
    have missing : fetch name session.counted = .error failure session.counted :=
      inspect_error found
    have plain : failure.isPlain = true :=
      Failure.isPlain_of_isOrdinary (session.store.heap.get_failsOrdinarily name failure found)
    rw [bind_error missing, bind_error missing]
    exact .error session.counted (.same failure) (Failure.sparesStack_of_isPlain plain)
  | ok record =>
    have fetched : fetch name session.counted = .ok record session.counted := inspect_ok found
    rw [bind_ok fetched, bind_ok fetched]
    have described : EndsAlike 0
        (((CallStack.withRoom 1 : EvalStack).callsWithin 0).describe name session.counted)
        (((CallStack.withRoom 2 : EvalStack).callsWithin 1).describe name session.counted) :=
      .describe (calm_withRoom 1 0) (calm_withRoom 2 1) name
    cases record with
    | symbol symbol => exact absurd found (unsymbolic symbol)
    | pair car cdr => exact absurd found (single car cdr)
    | _ =>
      exact described.bind fun shown mid =>
        .error mid (.same (.typeMismatch "symbol" shown)) rfl

end Evaluation

/-- Neither ending has to do with the host's stack. -/
theorem EndsAlike.ne_stackExhausted {more : Nat} {ending ending' : Ending Handle}
    (alike : EndsAlike more ending ending') :
    (∀ left, ending ≠ .error .stackExhausted left) ∧
      ∀ left, ending' ≠ .error .stackExhausted left := by
  cases alike with
  | ok value left => exact ⟨nofun, nofun⟩
  | error left same spares =>
    constructor
    · rintro _ ⟨⟩
      cases spares
    · rintro _ ⟨⟩
      cases same
      cases spares

/-- To define a procedure by the shorthand comes to the same as binding the name to the procedure
that `lambda` makes. The two expressions may stand anywhere in the session and share the name, the
parameters and the forms of the body. Whatever these are, both evaluations return the same handle
and leave the same session, or both fail, with the same failure unless it names the form, and leave
the same session. Only the step of the inner expression is counted in addition, which is evaluated
if the name is a symbol.

Any stack of the host gives these endings or is found used up. -/
theorem shorthand_defines_alike {session : Session} (entered : session.scopes.active ≠ [])
    (unlimited : session.stepLimit = 0) {short long name params body : Handle}
    {forms : List Handle}
    (single : ∀ car cdr, session.store.heap.get name ≠ .ok (.pair car cdr))
    (proper : session.store.heap.elements body = .ok forms)
    (shorthand : session.IsShorthand short name params body)
    (longhand : session.IsLonghand long name params body) :
    let more :=
      match session.store.heap.get name with
      | .ok (.symbol _) => 1
      | _ => 0
    ∃ ending ending', EndsAlike more ending ending' ∧
      EvaluatesTo short session ending ∧ EvaluatesTo long session ending' ∧
      ∀ stack room,
        EqualUnless .stackExhausted (evaluate stack room short session) ending ∧
        EqualUnless .stackExhausted (evaluate stack room long session) ending' := by
  intro more
  have alike : EndsAlike more (evaluate (.withRoom 1) 1 short session)
      (evaluate (.withRoom 2) 2 long session) := by
    dsimp only [more]
    split
    · next symbol symbolic =>
      exact defined_alike unlimited symbolic proper shorthand longhand
    · next unsymbolic =>
      exact refused_alike unlimited single unsymbolic proper shorthand longhand
  obtain ⟨roomy, roomy'⟩ := alike.ne_stackExhausted
  have ends : EvaluatesTo short session _ := ⟨roomy, 1, rfl⟩
  have ends' : EvaluatesTo long session _ := ⟨roomy', 2, rfl⟩
  exact ⟨_, _, alike, ends, ends', fun stack room =>
    ⟨ends.equalUnless entered stack room, ends'.equalUnless entered stack room⟩⟩

/-- A new session in which the same procedure is defined in both ways, without an evaluation. Its
two parameters have one name. -/
def sharing : Session :=
  let place : Routine Handle := do
    let name ← allocate (.symbol (← internSymbol "f"))
    let parameter ← allocate (.symbol (← internSymbol "x"))
    let body ← allocateList [parameter] none
    let params ← allocateList [parameter, parameter] none
    let target ← allocate (.pair name params)
    let operands ← allocate (.pair params body)
    let procedure ← allocate (.pair (← allocate (.keyword "lambda")) operands)
    let rest ← allocate (.pair target body)
    let others ← allocateList [name, procedure] none
    let define ← allocate (.keyword "define")
    let _ ← allocate (.pair define rest)
    allocate (.pair define others)
  place.after (.start .standard 0)

/-- The repeated parameter is refused in both ways, and each names its own form. -/
theorem shorthand_defines_alike_of_repeated :
    let name : Handle := ⟨.objects, 1, 0⟩
    let params : Handle := ⟨.objects, 5, 0⟩
    let body : Handle := ⟨.objects, 3, 0⟩
    let short : Handle := ⟨.objects, 14, 0⟩
    let long : Handle := ⟨.objects, 15, 0⟩
    sharing.scopes.active ≠ [] ∧ sharing.stepLimit = 0 ∧
      sharing.IsShorthand short name params body ∧ sharing.IsLonghand long name params body ∧
      sharing.store.heap.elements body = .ok [⟨.objects, 2, 0⟩] ∧
      ∃ left, EvaluatesTo short sharing
          (.error (.unsupportedForm "define" (.duplicateParameter "x")) left) ∧
        EvaluatesTo long sharing
          (.error (.unsupportedForm "lambda" (.duplicateParameter "x")) (left.further 1)) := by
  intro name params body short long
  have entered : sharing.scopes.active ≠ [] := by decide
  have symbolic : sharing.store.heap.get name = .ok (.symbol ⟨.symbols, 0, 0⟩) := by
    decide +kernel
  have proper : sharing.store.heap.elements body = .ok [⟨.objects, 2, 0⟩] := by decide +kernel
  have defines : sharing.vocabulary.form "define" = .ok .definition := by decide +kernel
  have makes : sharing.vocabulary.form "lambda" = .ok .abstraction := by decide +kernel
  have shorthand : sharing.IsShorthand short name params body := by
    refine ⟨⟨.objects, 10, 0⟩, ⟨.objects, 6, 0⟩, ⟨⟨.objects, 13, 0⟩, "define", ?_, ?_, defines⟩,
      ?_, ?_⟩ <;> decide +kernel
  have longhand : sharing.IsLonghand long name params body := by
    refine ⟨⟨.objects, 12, 0⟩, ⟨.objects, 9, 0⟩, ⟨.objects, 7, 0⟩,
      ⟨⟨.objects, 13, 0⟩, "define", ?_, ?_, defines⟩, ?_,
      ⟨⟨.objects, 8, 0⟩, "lambda", ?_, ?_, makes⟩, ?_⟩ <;> decide +kernel
  have single : ∀ car cdr, sharing.store.heap.get name ≠ .ok (.pair car cdr) := by
    rw [symbolic]
    exact nofun
  obtain ⟨ending, ending', alike, ends, ends', -⟩ :=
    shorthand_defines_alike entered rfl single proper shorthand longhand
  have fails : (evaluate (.withRoom 1) 1 short).failure? sharing =
      some (.unsupportedForm "define" (.duplicateParameter "x")) := by decide +kernel
  have fails' : (evaluate (.withRoom 2) 2 long).failure? sharing =
      some (.unsupportedForm "lambda" (.duplicateParameter "x")) := by decide +kernel
  obtain ⟨left, failed⟩ := failure?_eq_some_iff.mp fails
  obtain ⟨left', failed'⟩ := failure?_eq_some_iff.mp fails'
  have own : EvaluatesTo short sharing
      (.error (.unsupportedForm "define" (.duplicateParameter "x")) left) := ⟨nofun, 1, failed⟩
  have own' : EvaluatesTo long sharing
      (.error (.unsupportedForm "lambda" (.duplicateParameter "x")) left') := ⟨nofun, 2, failed'⟩
  obtain rfl := ends.unique entered own
  obtain rfl := ends'.unique entered own'
  rw [symbolic] at alike
  cases alike
  exact ⟨entered, rfl, shorthand, longhand, proper, left, ends, ends'⟩

end ScopedLisp
