import ScopedLisp.Proofs.Eval.ScopeStack
import ScopedLisp.Proofs.Scopes.Bindings
import ScopedLisp.Proofs.Store.Parameters

/-!
# Binding parameters

What becomes of parameters that passed their check when arguments are bound to them. If the numbers
agree, each parameter is bound to its argument in the current frame; otherwise nothing is written
at all. No other outcome is left, unless the host's stack is found used up.
-/

namespace ScopedLisp

open Routine

/-- There are as many arguments as parameters, or more of them and a symbol that takes what is left
over. -/
def Fits (required : Nat) (variadic : Bool) (supplied : Nat) : Prop :=
  supplied = required ∨ (required ≤ supplied ∧ variadic = true)

instance (required : Nat) (variadic : Bool) (supplied : Nat) :
    Decidable (Fits required variadic supplied) :=
  inferInstanceAs (Decidable (_ ∨ _))

/-- The numbers are refused by the test that stands before the binding just if they do not fit. -/
theorem not_fits_iff {required supplied : Nat} {variadic : Bool} :
    ¬Fits required variadic supplied ↔
      supplied < required ∨ (required < supplied ∧ ¬variadic = true) := by
  unfold Fits
  constructor
  · intro refused
    rcases Nat.lt_trichotomy supplied required with fewer | same | more
    · exact .inl fewer
    · exact absurd (.inl same) refused
    · exact .inr ⟨more, fun variadic => refused (.inr ⟨Nat.le_of_lt more, variadic⟩)⟩
  · rintro (fewer | ⟨more, fixed⟩) (same | ⟨enough, variadic⟩)
    · exact Nat.ne_of_lt fewer same
    · exact Nat.not_le_of_lt fewer enough
    · exact Nat.ne_of_gt more same
    · exact fixed variadic

theorem Fits.le {required supplied : Nat} {variadic : Bool}
    (fits : Fits required variadic supplied) : required ≤ supplied :=
  fits.elim (fun same => Nat.le_of_eq same.symm) And.left

/-- What the parameters are bound to: each to its argument, and a symbol at the end to `suffix`. -/
def callBindings (required : List Handle) (rest : Option Handle) (arguments : List Handle)
    (suffix : Handle) : Assoc Handle Handle :=
  required.zip arguments ++ rest.toList.map (·, suffix)

theorem keys_callBindings {required arguments : List Handle}
    (enough : required.length ≤ arguments.length) (rest : Option Handle) (suffix : Handle) :
    (callBindings required rest arguments suffix).keys = required ++ rest.toList := by
  have first : (required.zip arguments).map Prod.fst = required := List.map_fst_zip enough
  have last : (rest.toList.map (·, suffix)).map Prod.fst = rest.toList := by
    rw [List.map_map]
    exact List.map_id _
  rw [Assoc.keys, callBindings, List.map_append]
  exact congrArg₂ (· ++ ·) first last

namespace Calls

variable {total room : Nat} {calls : Calls}
  (checks : calls.reach = (CallStack.withRoom total : EvalStack).reach room)
include checks

theorem bindSymbol_ok {session : Session} {place : Fin session.scopes.frames.size}
    (current : session.scopes.currentPlace = .ok place) (symbol value : Handle) :
    calls.bindSymbol symbol value session =
      .ok () { session with scopes := session.scopes.write place symbol value } := by
  rw [Calls.bindSymbol, checks, bind_ok (CallStack.reach_eq _ _ _ _)]
  exact Routine.bindSymbol_ok current

/-- The parameters and the arguments are gone through side by side. Where the parameters end, what
is left of the arguments is what the symbol at their end stands for. -/
theorem bindFrom_eq (session : Session) {params args last : Handle} {required : List Handle}
    {rest : Option Handle} (parameters : session.store.heap.Parameters params required rest)
    {arguments : List Handle} (supplied : session.store.heap.Chain args arguments last .nil)
    (enough : required.length ≤ arguments.length) {steps : Nat} (short : required.length < steps)
    {scopes : Scopes} {place : Fin scopes.frames.size} (current : scopes.currentPlace = .ok place) :
    calls.bindFrom steps params args { session with scopes } =
      .ok () { session with
        scopes := scopes.writeAll place (callBindings required rest arguments
          (session.store.heap.drop required.length args)) } := by
  have fetched (scopes : Scopes) {h : Handle} {record : Record}
      (stored : session.store.heap.get h = .ok record) :
      fetch h { session with scopes } = .ok record { session with scopes } := inspect_ok stored
  induction parameters generalizing steps args arguments scopes with
  | none stored =>
    obtain ⟨steps, rfl⟩ := Nat.exists_eq_add_one_of_ne_zero (Nat.ne_zero_of_lt short)
    rw [bindFrom, bind_ok (fetched scopes stored)]
    exact congrArg (fun scopes => EStateM.Result.ok () { session with scopes })
      (scopes.writeAll_nil place).symm
  | @rest _ symbol stored =>
    obtain ⟨steps, rfl⟩ := Nat.exists_eq_add_one_of_ne_zero (Nat.ne_zero_of_lt short)
    have written := Scopes.writeAll_write place symbol args []
    rw [Scopes.writeAll_nil] at written
    rw [bindFrom, bind_ok (fetched scopes stored)]
    refine (bindSymbol_ok checks current symbol args).trans ?_
    exact congrArg (fun scopes => EStateM.Result.ok () { session with scopes }) written
  | @cons _ car cdr symbol required rest link named others ih =>
    obtain ⟨steps, rfl⟩ := Nat.exists_eq_add_one_of_ne_zero (Nat.ne_zero_of_lt short)
    cases supplied with
    | last _ _ => cases enough
    | @link _ argument args' _ arguments _ pair supplied =>
      -- the first argument is written, and the others are bound in the scopes after that
      obtain ⟨there, same, current'⟩ := Scopes.currentPlace_write current symbol argument
      have others_bound := ih supplied (Nat.le_of_succ_le_succ enough)
        (Nat.lt_of_succ_lt_succ short) current'
      rw [same, Scopes.writeAll_write, ← Heap.drop_succ pair] at others_bound
      rw [bindFrom, bind_ok (fetched scopes link)]
      dsimp only
      rw [bind_ok (fetched scopes named)]
      dsimp only
      rw [bind_ok (fetched scopes pair)]
      dsimp only
      rw [bind_ok (bindSymbol_ok checks current symbol argument)]
      exact others_bound

variable (session : Session) {params args : Handle} {required arguments : List Handle}
  {rest : Option Handle} (parameters : session.store.heap.Parameters params required rest)
  (supplied : session.store.heap.elements args = .ok arguments)
include parameters supplied

/-- The numbers are compared before anything is bound. -/
theorem bindParameters_eq :
    calls.bindParameters params args session =
      if Fits required.length rest.isSome arguments.length then
        calls.bindFrom (session.store.heap.size + 1) params args session
      else .error (.arityMismatch "" required.length rest.isSome arguments.length) session := by
  have shape : inspect (fun store _ => store.heap.parameterShape params) session =
      .ok (required.length, rest.isSome) session := inspect_ok parameters.parameterShape_eq
  have listed : elements args session = .ok arguments session := inspect_ok supplied
  rw [bindParameters, checks, bind_ok (CallStack.reach_eq _ _ _ _), bind_ok shape]
  dsimp only
  rw [bind_ok listed]
  split
  · next refused =>
    rw [if_neg (not_fits_iff.mpr refused)]
    rfl
  · next accepted =>
    rw [if_pos (Decidable.not_not.mp (not_fits_iff.not.mpr accepted))]
    rfl

/-- Binding succeeds if the numbers agree, and changes nothing otherwise. -/
theorem bindParameters_ends {place : Fin session.scopes.frames.size}
    (current : session.scopes.currentPlace = .ok place) :
    calls.bindParameters params args session =
      if Fits required.length rest.isSome arguments.length then
        .ok () { session with
          scopes := session.scopes.writeAll place (callBindings required rest arguments
            (session.store.heap.drop required.length args)) }
      else .error (.arityMismatch "" required.length rest.isSome arguments.length) session := by
  obtain ⟨last, chain⟩ := Heap.elements_eq_ok_iff.mp supplied
  rw [bindParameters_eq checks session parameters supplied]
  split
  · next fits =>
    exact bindFrom_eq checks session parameters chain fits.le
      (Nat.lt_succ_of_lt parameters.length_lt_size) current
  · rfl

end Calls

end ScopedLisp
