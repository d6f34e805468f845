import ScopedLisp.Proofs.Eval.Forms
import ScopedLisp.Proofs.Program.Reachable
import ScopedLisp.Proofs.Program.StepLimit

/-!
# Operands that are no list

Every special form walks along its operands before it does anything with them, so operands that do
not end in the empty list are refused at once: one step is counted and nothing else happens. All
forms but one report the end of the operands. `lambda` looks at its parameters first and reports a
mistake in them, or that there are none.
-/

namespace ScopedLisp

open Routine

/-- How a special form refuses operands that end at `last`, where the empty list is not. -/
def SpecialForm.refusal (store : Store) (last : Handle) : SpecialForm → List Handle → Failure
  | .abstraction, [] => .arityMismatch SpecialForm.abstraction.word 1 true 0
  | .abstraction, params :: _ =>
    match store.checkParameters SpecialForm.abstraction.word params with
    | .error failure => failure
    | .ok () => .improperList last
  | _, _ => .improperList last

namespace SpecialForm

variable {store : Store} {last : Handle} {form : SpecialForm} {operands : List Handle}

theorem refusal_of_ne (other : form ≠ .abstraction) :
    form.refusal store last operands = .improperList last := by
  cases form with
  | abstraction => exact absurd rfl other
  | _ => rfl

/-- Anything else than the end of the operands is reported about parameters: that there are none,
or the mistake in the first operand. -/
theorem refusal_cases (store : Store) (last : Handle) (form : SpecialForm)
    (operands : List Handle) :
    form.refusal store last operands = .improperList last ∨
      form = .abstraction ∧
        (operands = [] ∧ form.refusal store last operands = .arityMismatch form.word 1 true 0 ∨
          ∃ params others, operands = params :: others ∧
            store.checkParameters form.word params =
              .error (form.refusal store last operands)) := by
  cases form with
  | abstraction =>
    cases operands with
    | nil => exact .inr ⟨rfl, .inl ⟨rfl, rfl⟩⟩
    | cons params others =>
      cases checked : store.checkParameters SpecialForm.abstraction.word params with
      | error failure =>
        refine .inr ⟨rfl, .inr ⟨params, others, rfl, ?_⟩⟩
        rw [refusal, checked]
      | ok done =>
        left
        rw [refusal, checked]
  | _ => exact .inl rfl

/-- The refusal is about the operands and not about the host's stack. -/
theorem refusal_isPlain (store : Store) (last : Handle) (form : SpecialForm)
    (operands : List Handle) : (form.refusal store last operands).isPlain = true := by
  rcases refusal_cases store last form operands with
    improper | ⟨-, ⟨-, none⟩ | ⟨params, others, -, failed⟩⟩
  · rw [improper]
    rfl
  · rw [none]
    rfl
  · exact Store.isPlain_of_permits (store.permits_checkParameters _ params _ failed)

/-- `lambda` looks at its parameters, if there are any, before it walks along the body. -/
theorem runAbstraction_eq_refusal {calls : Calls} {session : Session} {rest : Handle}
    {record : Record} (chain : session.store.heap.Chain rest operands last record)
    (improper : record ≠ .nil) :
    runAbstraction calls rest session =
      .error (abstraction.refusal session.store last operands) session := by
  cases chain with
  | last stored final =>
    have fetched : fetch last session = .ok record session := inspect_ok stored
    rw [runAbstraction, bind_ok fetched]
    cases record with
    | pair car cdr => exact absurd rfl (final car cdr)
    | _ => rfl
  | @link _ params body _ others _ stored behind =>
    have fetched : fetch rest session = .ok (.pair params body) session := inspect_ok stored
    rw [runAbstraction, bind_ok fetched]
    dsimp only
    rw [Calls.makeProcedure, refusal]
    cases checked : session.store.checkParameters abstraction.word params with
    | error failure => exact bind_error (inspect_error checked)
    | ok done =>
      have passed : inspect (fun store _ => store.checkParameters abstraction.word params)
          session = .ok done session := inspect_ok checked
      have no_body : elements body session = .error (.improperList last) session :=
        inspect_error (behind.elements_eq_error improper)
      rw [bind_ok passed, Calls.sequenced]
      exact bind_error (bind_error no_body)

/-- On operands that are no list a form does nothing but refuse them, if the host's stack is not
found used up. -/
theorem run_eq_refusal {calls : Calls} (calm : calls.Calm) {session : Session} {rest : Handle}
    {record : Record} (chain : session.store.heap.Chain rest operands last record)
    (improper : record ≠ .nil) :
    form.run calls rest session =
      .error (form.refusal session.store last operands) session := by
  have no_list : elements rest session = .error (.improperList last) session :=
    inspect_error (chain.elements_eq_error improper)
  unfold run
  rw [bind_ok (calm .dispatching session)]
  cases form with
  | quotation => exact bind_error no_list
  | conditional => exact bind_error no_list
  | assignment => exact bind_error no_list
  | definition => exact bind_error no_list
  | abstraction => exact runAbstraction_eq_refusal chain improper
  | sequence => exact bind_error no_list

end SpecialForm

theorem evaluatesTo_refusal {session : Session} (budget : session.HasStepLeft)
    {expr rest last : Handle} {form : SpecialForm} (stands : session.IsForm expr form rest)
    {operands : List Handle} {record : Record}
    (chain : session.store.heap.Chain rest operands last record) (improper : record ≠ .nil) :
    EvaluatesTo expr session
      (.error (form.refusal session.store last operands) session.counted) := by
  refine ⟨?_, 1, ?_⟩
  · intro left exhausted
    have plain := SpecialForm.refusal_isPlain session.store last form operands
    injection exhausted with same
    rw [same] at plain
    cases plain
  · rw [evaluate_of_form budget stands]
    exact SpecialForm.run_eq_refusal (calm_withRoom 1 0) chain improper

/-- A special form refuses operands that are a chain of any length with any end but the empty list.
The step of the form itself is counted; apart from that the session is the one that was found, so
no operand was evaluated, nothing was allocated and nothing was bound. The end of the operands is
what is reported, except that `lambda` reports a lack of parameters or a mistake in them instead.

Any stack of the host gives this ending or is found used up. -/
theorem dotted_operands_refused {session : Session} (entered : session.scopes.active ≠ [])
    (budget : session.HasStepLeft) {expr rest last : Handle} {form : SpecialForm}
    (stands : session.IsForm expr form rest) {operands : List Handle} {record : Record}
    (chain : session.store.heap.Chain rest operands last record) (improper : record ≠ .nil) :
    let refusal := form.refusal session.store last operands
    EvaluatesTo expr session (.error refusal session.counted) ∧
    (∀ stack room, EqualUnless .stackExhausted (evaluate stack room expr session)
      (.error refusal session.counted)) ∧
    (form ≠ .abstraction → refusal = .improperList last) ∧
    (refusal = .improperList last ∨
      form = .abstraction ∧
        (operands = [] ∧ refusal = .arityMismatch form.word 1 true 0 ∨
          ∃ params others, operands = params :: others ∧
            session.store.checkParameters form.word params = .error refusal)) := by
  intro refusal
  have ends : EvaluatesTo expr session (.error refusal session.counted) :=
    evaluatesTo_refusal budget stands chain improper
  exact ⟨ends, ends.equalUnless entered, SpecialForm.refusal_of_ne,
    SpecialForm.refusal_cases session.store last form operands⟩

/-- A new session in which one step is allowed and this datum is placed. -/
def placing (datum : Datum) : Session := (embed datum).after (.start .standard 1)

theorem placing_wellFormed (datum : Datum) : (placing datum).WellFormed := by
  rw [placing, embed_eq_embedded]
  exact (embedded_safe (start_wellFormed .standard 1) datum).after.1

theorem placing_hasStepLeft (datum : Datum) : (placing datum).HasStepLeft := by
  obtain ⟨store, placed⟩ := (embed_changesStoreOnly datum (.start .standard 1)).1
  rw [placing, placed]
  exact .inr Int.one_pos

/-- The definition in front of the dot is not made. -/
theorem dotted_operands_refused_of_sequence :
    let session := placing (.dotted
      [.atom "begin", .list [.atom "define", .atom "x", .integer 1]] (.integer 5))
    session.scopes.active ≠ [] ∧ session.HasStepLeft ∧
      session.IsForm ⟨.objects, 10, 0⟩ .sequence ⟨.objects, 9, 0⟩ ∧
      session.store.heap.Chain ⟨.objects, 9, 0⟩ [⟨.objects, 7, 0⟩] ⟨.objects, 8, 0⟩ (.integer 5) ∧
      EvaluatesTo ⟨.objects, 10, 0⟩ session
        (.error (.improperList ⟨.objects, 8, 0⟩) session.counted) := by
  intro session
  have wf : session.WellFormed := placing_wellFormed _
  have budget : session.HasStepLeft := placing_hasStepLeft _
  have shape : session.store.heap.get ⟨.objects, 10, 0⟩ =
        .ok (.pair ⟨.objects, 1, 0⟩ ⟨.objects, 9, 0⟩) ∧
      session.store.heap.get ⟨.objects, 1, 0⟩ = .ok (.keyword "begin") ∧
      session.vocabulary.form "begin" = .ok .sequence ∧
      session.store.heap.get ⟨.objects, 9, 0⟩ =
        .ok (.pair ⟨.objects, 7, 0⟩ ⟨.objects, 8, 0⟩) ∧
      session.store.heap.get ⟨.objects, 8, 0⟩ = .ok (.integer 5) := by
    simp only [session, placing, embed_eq_embedded]
    decide +kernel
  obtain ⟨combination, word, meaning, link, five⟩ := shape
  have stands : session.IsForm ⟨.objects, 10, 0⟩ .sequence ⟨.objects, 9, 0⟩ :=
    ⟨_, _, combination, word, meaning⟩
  have chain := Heap.Chain.link link (.last five nofun)
  exact ⟨wf.entered, budget, stands, chain,
    (dotted_operands_refused wf.entered budget stands chain nofun).1⟩

/-- Where `lambda` has nothing but a dotted end for its operands, the end is not reported. -/
theorem not_improperList_of_abstraction :
    let session := placing (.dotted [.atom "lambda"] (.integer 5))
    session.WellFormed ∧ session.HasStepLeft ∧
      session.IsForm ⟨.objects, 3, 0⟩ .abstraction ⟨.objects, 2, 0⟩ ∧
      session.store.heap.Chain ⟨.objects, 2, 0⟩ [] ⟨.objects, 2, 0⟩ (.integer 5) ∧
      EvaluatesTo ⟨.objects, 3, 0⟩ session
        (.error (.arityMismatch "lambda" 1 true 0) session.counted) ∧
      ¬∃ tail left, EvaluatesTo ⟨.objects, 3, 0⟩ session (.error (.improperList tail) left) := by
  intro session
  have wf : session.WellFormed := placing_wellFormed _
  have budget : session.HasStepLeft := placing_hasStepLeft _
  have shape : session.store.heap.get ⟨.objects, 3, 0⟩ =
        .ok (.pair ⟨.objects, 1, 0⟩ ⟨.objects, 2, 0⟩) ∧
      session.store.heap.get ⟨.objects, 1, 0⟩ = .ok (.keyword "lambda") ∧
      session.vocabulary.form "lambda" = .ok .abstraction ∧
      session.store.heap.get ⟨.objects, 2, 0⟩ = .ok (.integer 5) := by
    simp only [session, placing, embed_eq_embedded]
    decide +kernel
  obtain ⟨combination, word, meaning, five⟩ := shape
  have stands : session.IsForm ⟨.objects, 3, 0⟩ .abstraction ⟨.objects, 2, 0⟩ :=
    ⟨_, _, combination, word, meaning⟩
  have chain := Heap.Chain.last five nofun
  have ends := evaluatesTo_refusal budget stands chain nofun
  refine ⟨wf, budget, stands, chain, ends, ?_⟩
  rintro ⟨tail, left, otherwise⟩
  cases ends.unique wf.entered otherwise

end ScopedLisp
