import ScopedLisp.Proofs.Eval.Binding
import ScopedLisp.Proofs.Eval.Metering
import ScopedLisp.Proofs.Program.Reachable

/-!
# Applying procedures

A parameter list is gone through three times: when the procedure is made it is checked, and when
the procedure is called its parameters are counted and then bound. The three agree. After a list
has passed its check, a call of the procedure either finds the numbers of parameters and arguments
to differ and binds nothing, or evaluates the body in a frame that binds each parameter.
-/

namespace ScopedLisp

open Routine

/-- The session in which the body of a procedure runs: a frame with the bindings was made under the
scope of the procedure and entered, and the call was reported. -/
def Session.called (session : Session) (scope : Handle) (bindings : Assoc Handle Handle) :
    Session :=
  let own := session.scopes.handleAt session.scopes.frames.size
  let depth := session.scopes.depth + 1
  { session with
    scopes := { session.scopes with
      frames := session.scopes.frames.push ⟨some scope, bindings⟩
      active := own :: session.scopes.active }
    journal := (session.journal.push (.scopeEntered own.index (some scope.index) depth)).push
      (.procedureApplied depth) }

namespace Session

variable (session : Session) (scope : Handle)

theorem currentPlace_called : ∃ place : Fin (session.called scope []).scopes.frames.size,
    place.val = session.scopes.frames.size ∧
      (session.called scope []).scopes.currentPlace = .ok place := by
  have inside : session.scopes.frames.size < (session.called scope []).scopes.frames.size := by
    rw [called, Array.size_push]
    exact Nat.lt_succ_self _
  exact ⟨⟨_, inside⟩, rfl, Scopes.position_eq_ok_iff.mpr rfl⟩

/-- Into the new frame the bindings are written as they are. -/
theorem called_writeAll {bindings : Assoc Handle Handle} (nodup : bindings.keys.Nodup) :
    { session.called scope [] with
      scopes := (session.called scope []).scopes.writeAll session.scopes.frames.size bindings } =
    session.called scope bindings := by
  have written : Assoc.putAll [] bindings = bindings := Assoc.putAll_eq_append nodup
  have same :
      ((session.called scope []).scopes.writeAll session.scopes.frames.size bindings).frames =
        (session.called scope bindings).scopes.frames := by
    apply Array.ext_getElem?
    intro i
    simp only [called, Scopes.writeAll, Array.getElem?_modify, Array.getElem?_push]
    split
    · next last =>
      rw [if_pos last.symm, if_pos last.symm]
      exact congrArg (fun bound => some (Frame.mk (some scope) bound)) written
    · next other => rw [if_neg (Ne.symm other), if_neg (Ne.symm other)]
  exact congrArg (fun frames => { session.called scope bindings with
    scopes := { (session.called scope bindings).scopes with frames } }) same

end Session

namespace Calls

variable {total room : Nat} {calls : Calls}
  (checks : calls.reach = (CallStack.withRoom total : EvalStack).reach room)
include checks

/-- A body that leaves the scopes active that it finds runs in a scope of its own as it does when
that scope has been entered, and the scope is left. -/
theorem within_eq_called {α : Type} {session : Session} (entered : session.scopes.active ≠ [])
    {scope : Handle} (held : session.scopes.Holds scope) {body : Routine α}
    (restores : (Ending.left (body (session.called scope []))).scopes.active =
      (session.called scope []).scopes.active) :
    calls.within scope body session =
      Ending.onLeft Session.scopeLeft (body (session.called scope [])) := by
  obtain ⟨i, known⟩ := Session.WellFormed.position_eq held
  have parent : session.scopes.parentFor (some scope) = .ok (some scope) := by
    rw [Scopes.parentFor, known]
    rfl
  obtain ⟨mid, enters, applied⟩ : ∃ mid, calls.enterScope scope session = .ok () mid ∧
      mid.applied = session.called scope [] := by
    rw [Calls.enterScope, checks, bind_ok (CallStack.reach_eq _ _ _ _),
      bind_ok (makeFrame_ok parent)]
    exact ⟨_, rfl, rfl⟩
  rw [within_eq enters]
  rw [← applied] at restores ⊢
  have active : mid.applied.scopes.active = _ :: session.scopes.active :=
    congrArg (fun later => later.scopes.active) applied
  exact Metered.ensuring_exitScope checks entered (restores.trans active)

end Calls

/-- What is at a handle is called as a procedure if it is one. -/
theorem apply_of_procedure {session : Session} {target params body scope : Handle}
    (stored : session.store.heap.get target = .ok (.procedure params body scope)) (calls : Calls)
    (args : Handle) :
    calls.apply target args session = calls.applyProcedure params body scope args session := by
  have found : fetch target session = .ok (.procedure params body scope) session :=
    inspect_ok stored
  rw [Calls.apply, bind_ok found]

section Applications

variable {session : Session} {params args scope : Handle} (entered : session.scopes.active ≠ [])
  (held : session.scopes.Holds scope) (total room : Nat) (body : Handle)
include entered held

/-- A call binds the parameters and evaluates the body in its new frame and leaves it again. -/
theorem applyProcedure_eq :
    let calls := (CallStack.withRoom total : EvalStack).callsWithin room
    calls.applyProcedure params body scope args session =
      Ending.onLeft Session.scopeLeft
        ((calls.bindParameters params args >>= fun _ => calls.evaluate body)
          (session.called scope [])) := by
  intro calls
  have law := (KeepsScopes.respectful (.withRoom total)).governed
  have related := KeepsScopes.calls (.withRoom total) room
  have keeps := law.bind (related.bindParameters law params args) fun _ => related.evaluate body
  exact Calls.within_eq_called rfl entered held (keeps.active_left (List.cons_ne_nil _ _))

variable {required arguments : List Handle} {rest : Option Handle}
  (parameters : session.store.heap.Parameters params required rest)
  (supplied : session.store.heap.elements args = .ok arguments)
include parameters supplied

/-- If the numbers agree, the body is evaluated with its parameters bound. Otherwise nothing is
bound, and the frame that was made for the call stays empty. -/
theorem applyProcedure_ends (nodup : (required ++ rest.toList).Nodup) :
    ((CallStack.withRoom total).callsWithin room).applyProcedure params body scope args session =
      if Fits required.length rest.isSome arguments.length then
        Ending.onLeft Session.scopeLeft (evaluate (.withRoom total) room body
          (session.called scope (callBindings required rest arguments
            (session.store.heap.drop required.length args))))
      else .error (.arityMismatch "" required.length rest.isSome arguments.length)
        (session.called scope []).scopeLeft := by
  let calls := (CallStack.withRoom total : EvalStack).callsWithin room
  obtain ⟨place, last, current⟩ := session.currentPlace_called scope
  have checks : calls.reach = (CallStack.withRoom total : EvalStack).reach room := rfl
  have ends := Calls.bindParameters_ends checks (session.called scope []) parameters supplied
    current
  rw [applyProcedure_eq entered held]
  split
  · next fits =>
    have keys := keys_callBindings fits.le rest (session.store.heap.drop required.length args)
    rw [if_pos fits, last] at ends
    have written := session.called_writeAll scope (keys ▸ nodup)
    rw [bind_ok (ends.trans (congrArg (EStateM.Result.ok ()) written))]
    rfl
  · next misfit =>
    rw [if_neg misfit] at ends
    rw [bind_error ends]
    rfl

end Applications

/-- Binding ends on every stack as on one that is never used up, unless it finds its own used up. -/
theorem bindParameters_equalUnless {session : Session} (entered : session.scopes.active ≠ [])
    {ending : Ending Unit} {params args : Handle} {room : Nat}
    (ends : ∀ calls : Calls, calls.reach = (CallStack.withRoom 0 : EvalStack).reach room →
      calls.bindParameters params args session = ending) (stack : EvalStack) :
    EqualUnless .stackExhausted
      ((stack.callsWithin room).bindParameters params args session) ending := by
  let check := (CallStack.withRoom 0 : EvalStack).reach
  let exhausted (_ : Handle) : Routine Handle := throw .stackExhausted
  let calls : Calls := ⟨evaluateWith check exhausted room, check room⟩
  have admits : stack.Admits check := fun _ _ _ _ => rfl
  have related : RelatedCalls (KeepsScopes stack) (stack.callsWithin room) calls :=
    (KeepsScopes.evalRelation admits exhausted).calls room
  have law := (KeepsScopes.respectful stack).governed
  have alike := (related.bindParameters law params args session entered).2
  rw [ends calls rfl] at alike
  exact alike

/-- The check of a parameter list, the count of its parameters and the binding agree.

Parameters that pass the check are symbols, all of them different. Binding succeeds just if there
are as many arguments, or more of them and a symbol for what is left over. Then each parameter
stands for its argument in the current frame, the symbol at the end for the list of the others, and
nothing else changes. Otherwise the numbers are reported and nothing changes at all. On any stack
this is what happens unless the stack is found used up.

The parameters of every stored procedure pass the check. So a call of the procedure evaluates its
body with all of the parameters bound, or reports the numbers and binds none of them. -/
theorem parameters_bound_as_checked {session : Session} (wf : session.WellFormed) {form : String}
    {params args : Handle} {arguments : List Handle}
    (accepted : session.store.checkParameters form params = .ok ())
    (supplied : session.store.heap.elements args = .ok arguments) :
    (∀ target params body scope,
      session.store.heap.get target = .ok (.procedure params body scope) →
        ∀ form, session.store.checkParameters form params = .ok ()) ∧
    ∃ place required rest,
      session.scopes.currentPlace = .ok place ∧
      session.store.heap.Parameters params required rest ∧ (required ++ rest.toList).Nodup ∧
      let suffix := session.store.heap.drop required.length args
      let bindings := callBindings required rest arguments suffix
      let bound := session.scopes.writeAll place bindings
      let fits := Fits required.length rest.isSome arguments.length
      let mismatch := Failure.arityMismatch "" required.length rest.isSome arguments.length
      let ending : Ending Unit :=
        if fits then .ok () { session with scopes := bound } else .error mismatch session
      (fits →
        session.store.heap.elements suffix = .ok (arguments.drop required.length) ∧
        session.scopes.Binds bound place bindings) ∧
      (∀ total room, ((CallStack.withRoom total).callsWithin room).bindParameters params args
        session = ending) ∧
      (∀ stack room, EqualUnless .stackExhausted
        ((CallStack.callsWithin stack room).bindParameters params args session) ending) ∧
      ∀ target body scope,
        session.store.heap.get target = .ok (.procedure params body scope) → ∀ total room,
          ((CallStack.withRoom total).callsWithin room).apply target args session =
            if fits then
              Ending.onLeft Session.scopeLeft
                (evaluate (.withRoom total) room body (session.called scope bindings))
            else .error mismatch (session.called scope []).scopeLeft := by
  obtain ⟨place, current⟩ := wf.currentPlace_eq
  obtain ⟨required, rest, parameters, nodup⟩ := Store.parameters_of_checkParameters accepted
  refine ⟨fun _ _ _ _ stored => wf.store.checkParameters_of_procedure stored,
    place, required, rest, current, parameters, nodup, ?_⟩
  intro suffix bindings bound fits mismatch ending
  refine ⟨?_, ?_, ?_, ?_⟩
  · intro agree
    have keys : bindings.keys = required ++ rest.toList := keys_callBindings agree.le rest suffix
    exact ⟨Heap.elements_drop supplied agree.le, Scopes.binds_writeAll place (keys ▸ nodup)⟩
  · intro total room
    exact Calls.bindParameters_ends rfl session parameters supplied current
  · intro stack room
    refine bindParameters_equalUnless wf.entered (fun calls checks => ?_) stack
    exact Calls.bindParameters_ends checks session parameters supplied current
  · intro target body scope stored total room
    rw [apply_of_procedure stored]
    exact applyProcedure_ends wf.entered (wf.captured stored) total room body parameters supplied
      nodup

/-- A procedure of one parameter and a symbol for the rest takes three arguments, of which the rest
shares a tail with the list of all. It does not take none. -/
theorem parameters_bound_as_checked_of_rest :
    let defined := (evaluateDatum .standard (.list [.atom "define",
      .dotted [.atom "f", .atom "x"] (.atom "rest"), .atom "rest"])).after (.start .standard 0)
    let session := (evaluateDatum .standard (.list
      [.atom "f", .integer 1, .integer 2, .integer 3])).after defined
    let params : Handle := ⟨.objects, 5, 0⟩
    let args : Handle := ⟨.objects, 22, 0⟩
    let bindings : Assoc Handle Handle :=
      [(⟨.symbols, 1, 0⟩, ⟨.objects, 13, 0⟩), (⟨.symbols, 2, 0⟩, ⟨.objects, 21, 0⟩)]
    session.WellFormed ∧ session.store.checkParameters "define" params = .ok () ∧
      session.store.heap.elements args =
        .ok [⟨.objects, 13, 0⟩, ⟨.objects, 14, 0⟩, ⟨.objects, 15, 0⟩] ∧
      session.store.heap.elements session.store.heap.nil = .ok [] ∧
      ∃ place, session.scopes.currentPlace = .ok place ∧ ∀ total room,
        let calls := (CallStack.withRoom total : EvalStack).callsWithin room
        calls.bindParameters params args session =
            .ok () { session with scopes := session.scopes.writeAll place bindings } ∧
          calls.bindParameters params session.store.heap.nil session =
            .error (.arityMismatch "" 1 true 0) session := by
  intro defined session params args bindings
  have wf : session.WellFormed :=
    ((Session.Reachable.start .standard 0).datum _ _).datum _ _ |>.wellFormed
  have shape : session.store.checkParameters "define" params = .ok () ∧
      session.store.heap.elements args =
        .ok [⟨.objects, 13, 0⟩, ⟨.objects, 14, 0⟩, ⟨.objects, 15, 0⟩] ∧
      session.store.heap.elements session.store.heap.nil = .ok [] ∧
      session.store.heap.get params = .ok (.pair ⟨.objects, 3, 0⟩ ⟨.objects, 4, 0⟩) ∧
      session.store.heap.get ⟨.objects, 3, 0⟩ = .ok (.symbol ⟨.symbols, 1, 0⟩) ∧
      session.store.heap.get ⟨.objects, 4, 0⟩ = .ok (.symbol ⟨.symbols, 2, 0⟩) ∧
      session.store.heap.drop 1 args = ⟨.objects, 21, 0⟩ := by
    simp only [session, defined, evaluateDatum, embed_eq_embedded]
    decide +kernel
  obtain ⟨accepted, supplied, none_supplied, link, named, last, suffix⟩ := shape
  have reading : session.store.heap.Parameters params [⟨.symbols, 1, 0⟩] (some ⟨.symbols, 2, 0⟩) :=
    .cons link named (.rest last)
  obtain ⟨-, place, required, rest, current, parameters, -, -, bound, -⟩ :=
    parameters_bound_as_checked wf accepted supplied
  obtain ⟨-, _, required', rest', _, parameters', -, -, refused, -⟩ :=
    parameters_bound_as_checked wf accepted none_supplied
  obtain ⟨rfl, rfl⟩ := parameters.unique reading
  obtain ⟨rfl, rfl⟩ := parameters'.unique reading
  have same : callBindings [⟨.symbols, 1, 0⟩] (some ⟨.symbols, 2, 0⟩)
      [⟨.objects, 13, 0⟩, ⟨.objects, 14, 0⟩, ⟨.objects, 15, 0⟩]
      (session.store.heap.drop 1 args) = bindings := by
    rw [suffix]
    rfl
  refine ⟨wf, accepted, supplied, none_supplied, place, current, fun total room => ⟨?_, ?_⟩⟩
  · rw [bound total room, if_pos (.inr ⟨by decide, rfl⟩), ← same]
    rfl
  · exact refused total room

end ScopedLisp
