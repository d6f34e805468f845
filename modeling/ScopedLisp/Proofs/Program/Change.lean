import ScopedLisp.Proofs.Eval.Change

/-!
# What programs change

A source text and a datum change a session by evaluations and by placing data in the heap. What
holds of the elementary changes and of placing data holds of them, whatever the outcome.
-/

namespace ScopedLisp.Leaves

open Routine

variable {P : Session → Session → Prop} (law : HoldsOfChanges P)
  (places : ∀ datum, Leaves P Handle (embed datum) (embed datum))
include law places

theorem evaluateDatum (host : Host) (datum : Datum) :
    Leaves P Handle (evaluateDatum host datum) (Routine.evaluateDatum host datum) := by
  apply bind law.quiet (places datum)
  intro expr
  exact guarded law.quiet (evaluate law host.evaluating host.evaluating.room expr)

omit places in
theorem readNext (host : Host) (stream : TokenStream) :
    Leaves P (Option (Datum × TokenStream)) (readNext host stream)
      (Routine.readNext host stream) := by
  apply guarded law.quiet
  cases Reader.datum? host.reading stream with
  | ok datum left => exact of_left_eq law.quiet fun _ => rfl
  | error failure left => exact of_left_eq law.quiet fun _ => rfl

theorem evaluateStream (host : Host) (rounds forms : Nat) (stream : TokenStream)
    (result : Handle) :
    Leaves P (Nat × Handle) (evaluateStream host rounds forms stream result)
      (Routine.evaluateStream host rounds forms stream result) := by
  induction rounds generalizing forms stream result with
  | zero => exact of_left_eq law.quiet fun _ => rfl
  | succ rounds ih =>
    apply bind law.quiet (readNext law host stream)
    intro found
    cases found with
    | none => exact of_left_eq law.quiet fun _ => rfl
    | some next => exact bind law.quiet (evaluateDatum law places host next.1) fun value => ih _ _ _

theorem evaluateSource (host : Host) (source : String) :
    Leaves P Handle (evaluateSource host source) (Routine.evaluateSource host source) := by
  have reading : Leaves P Handle nil nil := inspect law.quiet _
  apply bind law.quiet reading
  intro result
  apply bind law.quiet (evaluateStream law places host _ 0 _ result)
  intro ending session
  exact law.journal session _

end ScopedLisp.Leaves
