import ScopedLisp.Proofs.Program.Reachable
import ScopedLisp.Proofs.Session.Placement
import ScopedLisp.Proofs.Session.Preparation
import ScopedLisp.Proofs.Store.Extension

/-!
# Independence of the layout

What a program shows does not depend on where its objects are. In a new session and in one that was
prepared with other data, names, texts and scopes, a datum evaluates to objects that print alike, or
both evaluations fail with the same message, and they take the same number of steps. A message that
tells the handle of an object tells its place, so there the place may differ.
-/

namespace ScopedLisp

open Routine

/-- The failures are the same but for the place of the object that a list of arguments wrongly ends
in. -/
inductive Failure.SameButPlace : Failure → Failure → Prop where
  | same (failure : Failure) : SameButPlace failure failure
  | improperList (tail : Handle) (index : Int) :
    SameButPlace (.improperList tail) (.improperList { tail with index })

/-- Both endings are values that print alike, or both are failures that are the same but for places.
As many steps have been counted. -/
inductive ShowsAlike : Ending Handle → Ending Handle → Prop where
  | ok {h h' : Handle} {left left' : Session} (prints : left'.store.render h' = left.store.render h)
    (steps : left'.steps = left.steps) : ShowsAlike (.ok h left) (.ok h' left')
  | error {failure failure' : Failure} {left left' : Session}
    (same : failure.SameButPlace failure') (steps : left'.steps = left.steps) :
    ShowsAlike (.error failure left) (.error failure' left')

/-! ### Entries behind those of a new session -/

namespace Renaming

/-- What the one session holds keeps its place in the other one, and what is added to both comes
behind what the other one holds. -/
def behind (session session' : Session)
    (some_stored : 0 < session.store.heap.records.toList.length) : Renaming where
  place
    | .objects => behindAll session.store.heap.records.toList session'.store.heap.records.toList
    | .symbols => id
    | .texts => behindAll session.store.texts.contents.toList session'.store.texts.contents.toList
    | .scopes => behindAll session.scopes.frames.toList session'.scopes.frames.toList
  injective table := by
    cases table with
    | symbols => exact Function.injective_id
    | objects | texts | scopes => exact placeBehind_injective _ _
  nil := if_pos some_stored

variable {ρ : Renaming} {vocabulary : Vocabulary} {stepLimit : Int} {session : Session}

theorem start_storePlaced (larger : (Session.start vocabulary stepLimit).Enlarges session) :
    (behind (.start vocabulary stepLimit) session Nat.one_pos).StorePlaced
      (Session.start vocabulary stepLimit).store session.store := by
  have grown := larger.store.extends_store
  refine ⟨grown.heap.owner, ?_, grown.symbolsOwner, List.nil_subset _, List.nodup_nil,
    larger.store.nodup List.nodup_nil, grown.textsOwner, ?_⟩
  · refine Carries.of_extends (fun stored => ?_) (List.forall_mem_singleton.mpr ?_)
    · rw [Array.getElem?_toList] at stored ⊢
      exact grown.heap.records stored
    · exact @Record.Placed.other _ _ _ .nil fun _ _ _ => rfl
  · exact Carries.of_extends (fun stored => getElem?_of_prefix grown.contents stored)
      (List.forall_mem_nil _)

/-- A new session stands in the one that was prepared. -/
theorem start_placed (larger : (Session.start vocabulary stepLimit).Enlarges session)
    (same : session.scopes.active = (Session.start vocabulary stepLimit).scopes.active) :
    (behind (.start vocabulary stepLimit) session Nat.one_pos).SessionPlaced
      (.start vocabulary stepLimit) session := by
  refine ⟨start_storePlaced larger, fun _ => ⟨larger.scopesOwner, ?_, same⟩, larger.vocabulary,
    larger.stepLimit, larger.steps⟩
  exact Carries.of_extends (fun stored => getElem?_of_prefix larger.frames stored)
    (List.forall_mem_singleton.mpr rfl)

/-! ### Calls on the interpreter -/

theorem ScopesCarried.unwind {scopes scopes' : Scopes} (carried : ρ.ScopesCarried scopes scopes')
    (depth : Int) :
    ρ.AgreesUpTo ρ.ScopesCarried (scopes.unwind depth) (scopes'.unwind depth) := by
  unfold Scopes.unwind
  split
  · exact .error (.same _)
  · rw [carried.active, List.length_map, ← List.map_drop]
    exact .ok (carried.withActive _)

/-- Both routines run out of the host's stack or neither does. -/
theorem Follows.guarded {α β : Type} {rel : α → β → Prop} {body : Routine α} {body' : Routine β}
    (inner : ρ.Follows rel body body') : ρ.Follows rel (guarded body) (guarded body') := by
  intro session session' carried
  have ends := inner session session' carried
  unfold Routine.guarded
  generalize body session = ending, body' session' = ending' at ends
  cases ends with
  | ok related same => exact .ok related same
  | @excused failure fault left ending' =>
    cases failure with
    | stackExhausted => cases fault
    | _ => exact .excused fault left _
  | @error failure _ left left' related same =>
    cases related with
    | same =>
      cases failure with
      | stackExhausted =>
        have unwound := same.scopes.unwind session.scopes.depth
        dsimp only
        rw [carried.scopes.depth]
        generalize left.scopes.unwind session.scopes.depth = result,
          left'.scopes.unwind session.scopes.depth = result' at unwound
        cases unwound with
        | ok framed => exact .error (.same _) (same.withScopes framed)
        | error related => exact .error related same
        | excused fault _ => exact .excused fault left _
      | _ => exact .error (.same _) same
    | improperList tail => exact .error (.improperList tail) same
    | unboundVariable alike => exact .error (.unboundVariable alike) same
    | notCallable alike => exact .error (.notCallable alike) same
    | typeMismatch alike => exact .error (.typeMismatch alike) same
    | duplicateParameter alike => exact .error (.duplicateParameter alike) same

/-- Evaluation with the same room is followed, whatever there is for reading. -/
theorem Follows.evaluateAt (reading reading' : Reader.ReadStack) (room : Nat) (expr : Handle) :
    ρ.Follows (HandleRenamed ρ.handle) (evaluateAt ⟨reading, .withRoom room⟩ expr)
      (Routine.evaluateAt ⟨reading', .withRoom room⟩ (ρ.handle expr)) :=
  (Follows.evaluate room room expr).guarded

/-- Once the datum is placed, its evaluation is followed. -/
theorem SessionPlaced.evaluateDatum {session' : Session} (placed : ρ.SessionPlaced session session')
    (reading reading' : Reader.ReadStack) (room : Nat) (datum : Datum) :
    ∃ ρ' : Renaming,
      EndsAs ρ'.SessionCarried (Failure.Renamed ρ'.handle Eq) (HandleRenamed ρ'.handle)
        (evaluateDatum ⟨reading, .withRoom room⟩ datum session)
        (Routine.evaluateDatum ⟨reading', .withRoom room⟩ datum session') := by
  have placing := Places.embedded datum session session' placed
  simp only [Routine.evaluateDatum, embed_eq_embedded, bind, EStateM.bind]
  generalize embedded datum session = ending, embedded datum session' = ending' at placing
  cases placing with
  | @ok h _ left left' renamed placed =>
    obtain ⟨object, rfl⟩ := renamed
    have injective := symbolPlace_injective placed.store.nodup placed.store.names
    have carried := placed.carried
    rw [← withSymbols_handle injective (by rw [object]; decide)]
    exact ⟨_, Follows.evaluateAt reading reading' room h left left' carried⟩
  | error related placed =>
    subst related
    exact ⟨_, .error (.same _) placed.carried⟩
  | excused fault left _ => exact ⟨ρ, .excused fault left _⟩

theorem exists_handle_eq (h : Handle) : ∃ index, ρ.handle h = { h with index } := by
  unfold handle
  split
  · exact ⟨_, rfl⟩
  · exact ⟨h.index, rfl⟩

theorem sameButPlace {failure failure' : Failure} (renamed : failure.Renamed ρ.handle Eq failure') :
    failure.SameButPlace failure' := by
  cases renamed with
  | same => exact .same failure
  | improperList tail =>
    obtain ⟨index, moved⟩ := @exists_handle_eq ρ tail
    rw [moved]
    exact .improperList tail index
  | unboundVariable alike | notCallable alike | typeMismatch alike | duplicateParameter alike =>
    subst alike
    exact .same _

/-- Objects print alike where they stand, in a session as it is left by a safe ending. -/
theorem showsAlike {session : Session} {ending ending' : Ending Handle}
    (safe : EndsSafely session Yields ending)
    (ends : EndsAs ρ.SessionCarried (Failure.Renamed ρ.handle Eq) (HandleRenamed ρ.handle) ending
      ending') : ShowsAlike ending ending' := by
  cases ends with
  | @ok h _ left left' related same =>
    subst related
    obtain ⟨wf, -, held⟩ := safe
    refine .ok ?_ same.steps
    have shown : Agrees Eq Eq _ _ := same.store.render (fun _ => rfl) h
    have safely := wf.store.render_failsSafely held
    generalize left.store.render h = result, left'.store.render (ρ.handle h) = result' at *
    cases shown with
    | ok related => rw [related]
    | error related => rw [related]
    | excused fault _ => exact absurd (fault.symm.trans (safely _ rfl)) Bool.false_ne_true
  | error related same => exact .error (sameButPlace related) same.steps
  | excused fault left _ => exact absurd (fault.symm.trans safe.2.2) Bool.false_ne_true

end Renaming

/-! ### The result -/

section Result

variable {vocabulary : Vocabulary} {stepLimit : Int} {session : Session}

/-- With the same room on the host's stack. -/
theorem evaluateDatum_showsAlike (prepares : (Session.start vocabulary stepLimit).Prepares session)
    (reading reading' : Reader.ReadStack) (room : Nat) (datum : Datum) :
    ShowsAlike
      (evaluateDatum ⟨reading, .withRoom room⟩ datum (.start vocabulary stepLimit))
      (evaluateDatum ⟨reading', .withRoom room⟩ datum session) := by
  have wf := start_wellFormed vocabulary stepLimit
  obtain ⟨larger, same⟩ := prepares.enlarges wf.entered
  obtain ⟨_, ends⟩ := (Renaming.start_placed larger same).evaluateDatum reading reading' room datum
  exact Renaming.showsAlike (evaluateDatum_safe wf _ datum) ends

/-- On any stack that is not found used up, a datum is evaluated as with ample room. -/
theorem evaluateDatum_withRoom (host : Host) (more : Nat) (datum : Datum)
    (entered : session.scopes.active ≠ [])
    (roomy : ∀ left, evaluateDatum host datum session ≠ .error .recursionDepthExceeded left) :
    evaluateDatum ⟨host.reading, .withRoom (host.evaluating.room + more)⟩ datum session =
      evaluateDatum host datum session := by
  have fits : host.FitsIn ⟨host.reading, .withRoom (host.evaluating.room + more)⟩ :=
    ⟨⟨0, .refl _⟩, more, rfl, nofun⟩
  rcases (evaluateDatum_settlesAlike fits entered datum).2 with same | ⟨left, exhausted⟩
  · exact same.symm
  · exact absurd exhausted (roomy left)

/-- Evaluating a datum in a new session and in a prepared one cannot be told apart: the results
print alike, or the messages are the same but for the place of an object, and the steps are as many.

This holds on all machines of which neither has its stack found used up. On machines with the same
room it holds in any case, so the one stack is found used up where the other one is. -/
theorem layout_unobservable (vocabulary : Vocabulary) (stepLimit : Int) (session : Session)
    (prepares : (Session.start vocabulary stepLimit).Prepares session) (datum : Datum) :
    (∀ host host' : Host,
      (∀ left, evaluateDatum host datum (.start vocabulary stepLimit) ≠
        .error .recursionDepthExceeded left) →
      (∀ left, evaluateDatum host' datum session ≠ .error .recursionDepthExceeded left) →
      ShowsAlike (evaluateDatum host datum (.start vocabulary stepLimit))
        (evaluateDatum host' datum session)) ∧
    (∀ reading reading' room,
      ShowsAlike
        (evaluateDatum ⟨reading, .withRoom room⟩ datum (.start vocabulary stepLimit))
        (evaluateDatum ⟨reading', .withRoom room⟩ datum session)) := by
  have alike := fun reading reading' room =>
    evaluateDatum_showsAlike prepares reading reading' room datum
  refine ⟨fun host host' roomy roomy' => ?_, alike⟩
  have entered := (start_wellFormed vocabulary stepLimit).entered
  have entered' : session.scopes.active ≠ [] := (prepares.enlarges entered).2 ▸ entered
  have ends := alike host.reading host'.reading (host.evaluating.room + host'.evaluating.room)
  rw [evaluateDatum_withRoom host _ datum entered roomy, Nat.add_comm,
    evaluateDatum_withRoom host' _ datum entered' roomy'] at ends
  exact ends

end Result

/-- A new session into which a text was put, in a scope that was then left, with other data before
and a name behind. -/
def furnished : Session :=
  let before := (embed (.list [.atom "x", .string "other"])).after (.start .standard 0)
  let inner := (insertText "note").after ((enterScope none).after before)
  (internSymbol "y").after (exitScope.after inner)

theorem furnished_prepared : (Session.start .standard 0).Prepares furnished := by
  let before := (embed (.list [.atom "x", .string "other"])).after (.start .standard 0)
  have placed : (Session.start .standard 0).Prepares before := .embed (.refl _) _
  have entered : enterScope none before =
      .ok (before.scopes.handleAt before.scopes.frames.size) ((enterScope none).after before) := rfl
  exact (placed.scope entered (.insertText (.refl _) "note")).internSymbol "y"

/-- A call of an operator with arguments that are not a list fails in both sessions. The place of
what stands for the end of the list is all that differs in the messages. -/
theorem layout_unobservable_of_improperList :
    let datum : Datum := .dotted [.atom "+", .integer 1] (.integer 2)
    (Session.start .standard 0).Prepares furnished ∧
      (evaluateDatum .standard datum).failure? (.start .standard 0) =
        some (.improperList ⟨.objects, 3, 0⟩) ∧
      (evaluateDatum exitless datum).failure? furnished =
        some (.improperList ⟨.objects, 7, 0⟩) ∧
      ShowsAlike (evaluateDatum .standard datum (.start .standard 0))
        (evaluateDatum exitless datum furnished) := by
  intro datum
  have fails : (evaluateDatum .standard datum).failure? (.start .standard 0) =
      some (.improperList ⟨.objects, 3, 0⟩) := by
    rw [evaluateDatum, embed_eq_embedded]
    decide +kernel
  have fails' : (evaluateDatum exitless datum).failure? furnished =
      some (.improperList ⟨.objects, 7, 0⟩) := by
    rw [evaluateDatum, furnished, embed_eq_embedded, embed_eq_embedded]
    decide +kernel
  refine ⟨furnished_prepared, fails, fails', ?_⟩
  apply (layout_unobservable .standard 0 furnished furnished_prepared datum).1
  · intro left exhausted
    simp only [failure?, exhausted, reduceCtorEq, Option.some.injEq] at fails
  · intro left exhausted
    simp only [failure?, exhausted, reduceCtorEq, Option.some.injEq] at fails'

end ScopedLisp
