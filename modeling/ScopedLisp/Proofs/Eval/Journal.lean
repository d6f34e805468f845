import ScopedLisp.Proofs.Eval.Relation
import ScopedLisp.Proofs.Eval.ScopeStack
import ScopedLisp.Proofs.Session.Embedding
import ScopedLisp.Proofs.Session.Mirror
import ScopedLisp.Proofs.Token.Seam

/-!
# Evaluation does not look into the journal

Events are only ever added to the journal. So an evaluation takes the same course whatever was
reported before, and leaves the same session but for that. It has nothing to do with source texts
either: it does not fail on account of one.
-/

namespace ScopedLisp

open Routine

/-- The session with `past` in front of what was reported. -/
def Session.afterEvents (past : Array Event) (session : Session) : Session :=
  { session with journal := past ++ session.journal }

/-- The sessions are the same but for what was reported. -/
def Session.SameState (session session' : Session) : Prop :=
  ∃ journal, session' = { session with journal }

namespace Session

/-- Past events make no difference to the state. -/
theorem sameState_afterEvents (past past' : Array Event) (session : Session) :
    (session.afterEvents past).SameState (session.afterEvents past') := ⟨_, rfl⟩

theorem afterEvents_journal (session : Session) (journal : Array Event) :
    ({ session with journal := #[] } : Session).afterEvents journal = { session with journal } := by
  simp [afterEvents]

/-- Nothing that evaluation is made of looks at past events. -/
theorem unseen_afterEvents (past : Array Event) (shift : Nat) :
    Unseen (·.afterEvents past) (·.moved shift) where
  scopes _ := rfl
  steps _ := rfl
  stepLimit _ := rfl
  withScopes _ _ := rfl
  withSteps _ _ := rfl
  report session event := by simp [afterEvents]
  fixed failure ofEvaluation := by
    cases failure with
    | malformedSource _ => cases ofEvaluation
    | _ => rfl
  malformed defect := ⟨_, rfl⟩

end Session

/-! ### Routines after other events -/

/-- After more events the second routine does what the first one does, except that a failure of a
source text tells a place further on. -/
abbrev Continues (past : Array Event) (shift : Nat) : (α : Type) → Routine α → Routine α → Prop :=
  Mirrors (·.afterEvents past) (·.moved shift)

namespace Continues

variable {past : Array Event} {shift : Nat} {α : Type}

theorem inspect {read : Store → Vocabulary → Except Failure α}
    (plain : ∀ store words, FailsPlainly (read store words)) :
    Continues past shift α (inspect read) (Routine.inspect read) := by
  refine .reading (Session.unseen_afterEvents past shift)
    (fun session => read session.store session.vocabulary) (fun _ => rfl) (fun _ => rfl) ?_
  intro session failure missing
  exact Failure.isOfEvaluation_of_isPlain (plain _ _ failure missing)

/-- A binding is written alike after other events if its place is found alike. -/
theorem writeBinding {find : (session : Session) → Except Failure (Fin session.scopes.frames.size)}
    (same : ∀ session, find (session.afterEvents past) = find session)
    (fails : ∀ session, FailsWithin Failure.isOfEvaluation (find session)) (symbol value : Handle) :
    Continues past shift Unit (writeBinding find symbol value)
      (Routine.writeBinding find symbol value) := by
  intro session
  have found := same session
  unfold Routine.writeBinding
  rw [found]
  cases result : find session with
  | ok place => rfl
  | error failure =>
    exact Mirrors.fail (Session.unseen_afterEvents past shift) (fails session failure result)
      session

/-- The operations on bindings and objects do not look at past events. -/
theorem respectful (past : Array Event) (shift : Nat) : Respectful (Continues past shift) where
  pure := .pure
  bind := .bind
  inspect := inspect
  allocate _ := fun _ => rfl
  currentScope := .currentScope (Session.unseen_afterEvents past shift)
  lookupSymbol symbol :=
    .reading (Session.unseen_afterEvents past shift)
      (fun session => session.scopes.lookup session.store.symbols.name symbol) (fun _ => rfl)
      (fun _ => rfl) fun session => Scopes.lookup_failsWithin (.ofEvaluation _)
        (session.store.symbols.name_failsOrdinarily symbol)
  bindSymbol := writeBinding (fun _ => rfl) fun _ =>
    Scopes.currentPlace_failsWithin (.ofEvaluation _)
  assignSymbol symbol := writeBinding (fun _ => rfl)
    (fun session => Scopes.bindingPlace_failsWithin (.ofEvaluation _)
      (session.store.symbols.name_failsOrdinarily symbol)) symbol

/-- Evaluation does the same after other events, and adds its own to them. -/
theorem evaluate (room total : Nat) (expr : Handle) :
    Continues past shift Handle (evaluate (.withRoom total) room expr)
      (ScopedLisp.evaluate (.withRoom total) room expr) := by
  have unseen := Session.unseen_afterEvents past shift
  have evaluation : EvalRelation (.withRoom total) (CallStack.withRoom total).reach
      (fun _ => throw .stackExhausted) (Continues past shift) :=
    { respectful past shift with
      reach := fun _ _ _ => rfl
      exhausted := fun _ _ => rfl
      tick := fun room calls calls' checks checks' => by
        have passes (moment : Moment) : Continues past shift Unit (calls.reach moment)
            (calls'.reach moment) := by
          rw [checks, checks']
          exact fun _ => rfl
        exact .tick unseen passes
      within := fun room calls calls' checks checks' _ parent _ _ inner => by
        have passes (moment : Moment) : Continues past shift Unit (calls.reach moment)
            (calls'.reach moment) := by
          rw [checks, checks']
          exact fun _ => rfl
        exact .within unseen passes parent inner }
  exact evaluation.evaluate room expr

theorem evaluateAt (reading reading' : Reader.ReadStack) (room : Nat) (expr : Handle) :
    Continues past shift Handle (evaluateAt ⟨reading, .withRoom room⟩ expr)
      (Routine.evaluateAt ⟨reading', .withRoom room⟩ expr) :=
  (evaluate room room expr).guarded (Session.unseen_afterEvents past shift)

/-- Placing data in the heap does not look at past events. -/
theorem holdsOfPlacing (past : Array Event) (shift : Nat) :
    HoldsOfPlacing fun α routine => Continues past shift α routine routine where
  pure := .pure
  bind := .bind
  fail plain := .fail (Session.unseen_afterEvents past shift)
    (Failure.isOfEvaluation_of_isPlain plain)
  allocate _ := fun _ => rfl
  allocateList _ _ := fun _ => rfl
  insertText _ := fun _ => rfl
  internAtom name := by
    have reading : Continues past shift (Option Record)
        (Routine.inspect fun _ words => .ok (words.classify name))
        (Routine.inspect fun _ words => .ok (words.classify name)) :=
      inspect fun _ _ => .ok _
    apply reading.bind
    intro reserved
    cases reserved with
    | some record => exact .pure record
    | none =>
      have interning : Continues past shift Handle (internSymbol name) (internSymbol name) :=
        fun _ => rfl
      exact interning.bind fun _ => .pure _

/-- A datum is evaluated alike after other events. -/
theorem evaluateDatum (reading reading' : Reader.ReadStack) (room : Nat) (datum : Datum) :
    Continues past shift Handle (evaluateDatum ⟨reading, .withRoom room⟩ datum)
      (Routine.evaluateDatum ⟨reading', .withRoom room⟩ datum) :=
  ((holdsOfPlacing past shift).embed datum).bind fun _ => evaluateAt reading reading' room _

end Continues

end ScopedLisp
