import Mathlib.Logic.Equiv.Basic
import ScopedLisp.Proofs.Program.Reachable
import ScopedLisp.Proofs.Session.Naming

/-!
# Independence of the names

It does not matter which names a program uses. If all atoms of a datum are changed, so that
different ones stay different and the reserved words stay what they are, then the evaluation of the
datum takes the same course: the same records are made at the same places, the same frames with the
same bindings, and the same steps are counted. Only the table of names shows the change, and a
message that quotes a name or an object.
-/

namespace ScopedLisp

open Routine

/-- Both endings are the same value or failures of the same kind. The second session is the first
one but for the names of its symbols, which are changed. -/
inductive SameButNames (rename : String → String) : Ending Handle → Ending Handle → Prop where
  | ok (h : Handle) (left : Session) :
    SameButNames rename (.ok h left) (.ok h (left.renamed rename))
  | error {failure failure' : Failure} (alike : failure.SameButTexts failure') (left : Session) :
    SameButNames rename (.error failure left) (.error failure' (left.renamed rename))

/-- The runs end alike on all machines of which neither has its stack found used up. On machines
with the same room they do so in any case, so the one stack is found used up where the other one is.
-/
structure AlikeOnMachines (rename : String → String) (run run' : Host → Ending Handle) : Prop where
  roomy : ∀ host host', (∀ left, run host ≠ .error .recursionDepthExceeded left) →
    (∀ left, run' host' ≠ .error .recursionDepthExceeded left) →
      SameButNames rename (run host) (run' host')
  withRoom : ∀ reading reading' room,
    SameButNames rename (run ⟨reading, .withRoom room⟩) (run' ⟨reading', .withRoom room⟩)

/-- Machines that do not run out of the stack are as good as roomier ones. -/
theorem AlikeOnMachines.of_withRoom {rename : String → String} {run run' : Host → Ending Handle}
    (more_room : ∀ (host ample : Host), host.FitsIn ample →
      EqualUnless .recursionDepthExceeded (run host) (run ample))
    (more_room' : ∀ (host ample : Host), host.FitsIn ample →
      EqualUnless .recursionDepthExceeded (run' host) (run' ample))
    (withRoom : ∀ reading reading' room,
      SameButNames rename (run ⟨reading, .withRoom room⟩) (run' ⟨reading', .withRoom room⟩)) :
    AlikeOnMachines rename run run' := by
  refine ⟨fun host host' roomy roomy' => ?_, withRoom⟩
  have fits (host : Host) (more : Nat) :
      host.FitsIn ⟨host.reading, .withRoom (host.evaluating.room + more)⟩ :=
    ⟨⟨0, .refl _⟩, more, rfl, nofun⟩
  have ends := withRoom host.reading host'.reading (host.evaluating.room + host'.evaluating.room)
  rcases more_room host _ (fits host host'.evaluating.room) with same | ⟨left, exhausted⟩
  · rcases more_room' host' _ (fits host' host.evaluating.room) with same' | ⟨left, exhausted⟩
    · rw [same, same', Nat.add_comm host'.evaluating.room]
      exact ends
    · exact absurd exhausted (roomy' left)
  · exact absurd exhausted (roomy left)

section Machines

variable {host ample : Host} {session : Session}

theorem runDatum_settlesAlike (fits : host.FitsIn ample) (entered : session.scopes.active ≠ [])
    (datum : Datum) : SettlesAlike session (runDatum host datum) (runDatum ample datum) := by
  have loading : SettlesAlike session (loadDatum datum) (loadDatum datum) := by
    apply (SettlesAlike.of_storeOnly (embed_changesStoreOnly datum) session).bind
    intro expr mid _ _
    exact ⟨rfl, .refl _⟩
  apply loading.bind
  intro expr mid _ same
  exact evaluateAt_settlesAlike fits (same ▸ entered) expr

theorem runDatum_safe (wf : session.WellFormed) (host : Host) (datum : Datum) :
    Safe session (runDatum host datum) Yields := by
  unfold runDatum loadDatum
  rw [embed_eq_embedded, bind_assoc]
  apply (embedded_safe wf datum).bind
  intro expr mid wf _ held
  have reported : Safe mid (do report (.programLoaded (← get).store.heap.size); return expr)
      Yields := ⟨wf.congr rfl rfl, .of_eq rfl rfl, held⟩
  apply reported.bind
  intro program left wf _ held
  exact evaluateAt_safe wf host held

end Machines

namespace NameChange

variable {words : Vocabulary} (change : NameChange words)

/-- What was related throughout is related in the end, where no fault stopped the run. -/
theorem sameButNames {session : Session} {ending ending' : Ending Handle}
    (safe : EndsSafely session Yields ending)
    (ends : EndsAs (fun left left' => left' = left.renamed change.rename) Failure.SameButTexts
      (HandleRenamed id) ending ending') : SameButNames change.rename ending ending' := by
  cases ends with
  | ok related same =>
    subst related same
    exact .ok _ _
  | error related same =>
    subst same
    exact .error related _
  | excused fault left _ => exact absurd (fault.symm.trans safe.2.2) Bool.false_ne_true

/-- Once a datum is placed, the evaluations of it resemble each other. -/
theorem evaluates {routine routine' : Routine Handle} (placing : change.Commutes routine routine')
    (session : Session) (reserved : session.vocabulary = words)
    (reading reading' : Reader.ReadStack) (room : Nat) :
    EndsAs (fun left left' => left' = left.renamed change.rename) Failure.SameButTexts
      (HandleRenamed id) ((routine >>= evaluateAt ⟨reading, .withRoom room⟩) session)
      ((routine' >>= evaluateAt ⟨reading', .withRoom room⟩) (session.renamed change.rename)) := by
  have same := (placing session reserved).1
  cases result : routine session with
  | ok expr mid =>
    rw [result] at same
    rw [bind_ok result, bind_ok same]
    exact (Resembles.evaluate room room expr).guarded mid _ rfl
  | error failure left =>
    rw [result] at same
    rw [bind_error result, bind_error same]
    exact .error (.same failure) rfl

theorem loadDatum_commutes (datum : Datum) :
    change.Commutes (loadDatum datum) (loadDatum (datum.renamed change.rename)) := by
  unfold loadDatum
  rw [embed_eq_embedded, embed_eq_embedded]
  apply (Commutes.embedded datum).bind
  intro expr session reserved
  exact ⟨rfl, reserved⟩

end NameChange

/-- The names that a datum uses do not influence its evaluation. In new sessions with the same
reserved words and the same limit, a datum and the datum with its atoms changed have the same value,
or both fail in the same way, and the sessions that are left are the same but for the names of the
symbols, which correspond one by one. So it is whether the datum is only evaluated or loaded as a
program. -/
theorem names_unobservable (words : Vocabulary) (stepLimit : Int) (change : NameChange words)
    (datum : Datum) :
    AlikeOnMachines change.rename
        (fun host => evaluateDatum host datum (.start words stepLimit))
        (fun host => evaluateDatum host (datum.renamed change.rename) (.start words stepLimit)) ∧
      AlikeOnMachines change.rename
        (fun host => runDatum host datum (.start words stepLimit))
        (fun host => runDatum host (datum.renamed change.rename) (.start words stepLimit)) := by
  have wf := start_wellFormed words stepLimit
  have fresh : (Session.start words stepLimit).renamed change.rename = .start words stepLimit := rfl
  constructor
  · refine .of_withRoom (fun host ample fits => (evaluateDatum_settlesAlike fits wf.entered _).2)
      (fun host ample fits => (evaluateDatum_settlesAlike fits wf.entered _).2) ?_
    intro reading reading' room
    have placing : change.Commutes (embed datum) (embed (datum.renamed change.rename)) := by
      rw [embed_eq_embedded, embed_eq_embedded]
      exact .embedded datum
    have ends := change.evaluates placing (.start words stepLimit) rfl reading reading' room
    rw [fresh] at ends
    exact change.sameButNames (evaluateDatum_safe wf _ datum) ends
  · refine .of_withRoom (fun host ample fits => (runDatum_settlesAlike fits wf.entered _).2)
      (fun host ample fits => (runDatum_settlesAlike fits wf.entered _).2) ?_
    intro reading reading' room
    have ends := change.evaluates (change.loadDatum_commutes datum) (.start words stepLimit) rfl
      reading reading' room
    rw [fresh] at ends
    exact change.sameButNames (runDatum_safe wf _ datum) ends

/-- The names `x` and `y` exchanged. -/
def exchanged : NameChange .standard where
  rename := Equiv.swap "x" "y"
  injective := (Equiv.swap "x" "y").injective
  reserved name reserved := by
    apply Equiv.swap_apply_of_ne_of_ne
    · rintro rfl
      cases reserved
    · rintro rfl
      cases reserved

/-- A parameter that is given twice is refused under any name, with the name in the message. -/
theorem names_unobservable_of_duplicateParameter :
    let lambda (name : String) : Datum :=
      .list [.atom "lambda", .list [.atom name, .atom name], .integer 1]
    (evaluateDatum .standard (lambda "x")).failure? (.start .standard 0) =
        some (.unsupportedForm "lambda" (.duplicateParameter "x")) ∧
      (evaluateDatum .standard (lambda "y")).failure? (.start .standard 0) =
        some (.unsupportedForm "lambda" (.duplicateParameter "y")) ∧
      SameButNames exchanged.rename
        (evaluateDatum .standard (lambda "x") (.start .standard 0))
        (evaluateDatum .standard (lambda "y") (.start .standard 0)) := by
  intro lambda
  have refused (name : String) (small : name = "x" ∨ name = "y") :
      (evaluateDatum .standard (lambda name)).failure? (.start .standard 0) =
        some (.unsupportedForm "lambda" (.duplicateParameter name)) := by
    rw [evaluateDatum, embed_eq_embedded]
    rcases small with rfl | rfl <;> decide +kernel
  have changed : (lambda "x").renamed exchanged.rename = lambda "y" := by
    simp [lambda, exchanged, Datum.renamed, Datum.renamedAll, Equiv.swap_apply_def]
  have alike := (names_unobservable .standard 0 exchanged (lambda "x")).1.withRoom
    (.withRoom 900) (.withRoom 900) 330
  rw [changed] at alike
  exact ⟨refused "x" (.inl rfl), refused "y" (.inr rfl), alike⟩

end ScopedLisp
