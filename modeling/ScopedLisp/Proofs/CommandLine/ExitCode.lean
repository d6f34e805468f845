import ScopedLisp.CommandLine
import ScopedLisp.Proofs.Program.Conversion

/-!
# How the command ends

Without options and settings the command prints the last value of its program or the program's
mistake, and its exit code tells which. Nothing else comes of any program unless a number has too
many digits to be converted: this is the one failure that the command does not report.
-/

namespace ScopedLisp.CommandLine

open Routine

/-- The settings when no variable is set. -/
def unset : Settings := ⟨none, none⟩

/-- Any program can be asked for behind the separator. -/
theorem ofArguments_separator (program : String) :
    Request.ofArguments ["--", program] = .ok (.evaluate program false none none) :=
  rfl

/-- Without options and settings no records are shown and the steps are not limited. -/
theorem run_eq {host : Host} {program : String} {arguments : List String}
    (asked : Request.ofArguments arguments = .ok (.evaluate program false none none)) :
    run host unset arguments =
      evaluateAndShow host program false Settings.defaultLevel (.start .standard 0) := by
  simp only [run, asked]
  rfl

theorem shownRecords_defaultLevel (session : Session) :
    shownRecords Settings.defaultLevel session = "" :=
  if_neg (by decide)

section Show

variable {host : Host} {program : String} {session left : Session} {failure : Failure}

theorem evaluateAndShow_ok {result : Handle} {text : String}
    (evaluated : evaluateSource host program session = .ok result left)
    (rendered : left.store.render result = .ok text) :
    evaluateAndShow host program false Settings.defaultLevel session =
      ⟨text ++ "\n", "", .ok 0⟩ := by
  simp only [evaluateAndShow, evaluated, rendered, shownState, shownRecords_defaultLevel,
    Bool.false_eq_true, if_false, String.append_empty]

theorem evaluateAndShow_unprinted {result : Handle}
    (evaluated : evaluateSource host program session = .ok result left)
    (failed : left.store.render result = .error failure) :
    evaluateAndShow host program false Settings.defaultLevel session =
      ⟨"", "", .error failure⟩ := by
  simp only [evaluateAndShow, evaluated, failed, shownRecords_defaultLevel]

theorem evaluateAndShow_mistake
    (failed : evaluateSource host program session = .error failure left)
    (mistake : failure.family = .program) :
    evaluateAndShow host program false Settings.defaultLevel session =
      ⟨"", "error: " ++ failure.message ++ "\n", .ok 1⟩ := by
  simp only [evaluateAndShow, failed, mistake, shownState, shownRecords_defaultLevel,
    Bool.false_eq_true, if_false, String.append_empty, String.empty_append]

theorem evaluateAndShow_unreported
    (failed : evaluateSource host program session = .error failure left)
    (unreported : failure.family = .host) :
    evaluateAndShow host program false Settings.defaultLevel session =
      ⟨"", "", .error failure⟩ := by
  simp only [evaluateAndShow, failed, unreported, shownRecords_defaultLevel]

end Show

/-- Without options and settings, the command prints the value of any program and ends with exit
code 0, or it prints a mistake of the program on the error channel and ends with exit code 1.

It ends otherwise only because a number has too many digits to be converted. Then the program
contains such a numeral, or evaluation has left such a number in the heap. -/
theorem command_ends_with_code (host : Host) (program : String) (arguments : List String)
    (asked : Request.ofArguments arguments = .ok (.evaluate program false none none)) :
    let ending := evaluateSource host program (.start .standard 0)
    let outcome := run host unset arguments
    (∃ result left text, ending = .ok result left ∧ left.store.render result = .ok text ∧
      outcome = ⟨text ++ "\n", "", .ok 0⟩) ∨
    (∃ failure left, ending = .error failure left ∧ failure.family = .program ∧
      outcome = ⟨"", "error: " ++ failure.message ++ "\n", .ok 1⟩) ∨
    (outcome = ⟨"", "", .error .tooManyDigits⟩ ∧
      ((∃ token ∈ (Token.scan program).items, token.IsOverlong) ∨
        (Ending.left ending).store.heap.hasWide = true)) := by
  intro ending outcome
  have shown : outcome = _ := run_eq asked
  have wf := start_wellFormed .standard 0
  cases result : ending with
  | ok value left =>
    have safe := evaluateSource_safe wf host program
    unfold Safe at safe
    rw [show evaluateSource host program _ = .ok value left from result] at safe
    cases rendered : left.store.render value with
    | ok text =>
      rw [evaluateAndShow_ok result rendered] at shown
      exact .inl ⟨value, left, text, rfl, rendered, shown⟩
    | error failure =>
      obtain ⟨rfl, wide⟩ := safe.1.store.render_eq_error safe.2.2 rendered
      rw [evaluateAndShow_unprinted result rendered] at shown
      exact .inr (.inr ⟨shown, .inr wide⟩)
  | error failure left =>
    have ended : evaluateSource host program (.start .standard 0) = .error failure left := result
    have failed := failure?_eq_some_iff.mpr ⟨left, ended⟩
    obtain mistake | ⟨rfl, wide⟩ := wf.family_of_evaluateSource failed
    · rw [evaluateAndShow_mistake result mistake] at shown
      exact .inr (.inl ⟨failure, left, rfl, mistake, shown⟩)
    · rw [evaluateAndShow_unreported result rfl] at shown
      rw [after_error ended] at wide
      exact .inr (.inr ⟨shown, wide⟩)

/-- A name that is not bound is reported. -/
theorem command_ends_with_code_of_unbound :
    Request.ofArguments ["--", "x"] = .ok (.evaluate "x" false none none) ∧
      run .standard unset ["--", "x"] = ⟨"", "error: unbound variable: x\n", .ok 1⟩ := by
  have asked := ofArguments_separator "x"
  have scanned : Token.scan "x" = ⟨[⟨.symbol, "x"⟩], none⟩ := by cbv
  have failed : (evaluateSource .standard "x").failure? (.start .standard 0) =
      some (.unboundVariable "x") := by
    simp only [evaluateSource, evaluateStream, evaluateDatum, embed_eq_embedded]
    decide +kernel
  have narrow : (Ending.left (evaluateSource .standard "x" (.start .standard 0))).store.heap.hasWide
      = false := by
    simp only [evaluateSource, evaluateStream, evaluateDatum, embed_eq_embedded]
    decide +kernel
  refine ⟨asked, ?_⟩
  obtain ⟨_, _, _, evaluated, -⟩ | ⟨failure, left, ending, -, outcome⟩ |
    ⟨-, ⟨token, member, overlong⟩ | wide⟩ := command_ends_with_code .standard "x" _ asked
  · obtain ⟨_, failing⟩ := failure?_eq_some_iff.mp failed
    rw [evaluated] at failing
    cases failing
  · obtain ⟨_, failing⟩ := failure?_eq_some_iff.mp failed
    rw [ending] at failing
    cases failing
    exact outcome
  · rw [scanned] at member
    obtain rfl := List.mem_singleton.mp member
    obtain ⟨-, sign, digits, numeral, -⟩ := overlong
    exact absurd (Grammar.isLiteral_iff.mpr ⟨sign, digits, numeral⟩) (by decide)
  · exact absurd wide (narrow ▸ Bool.false_ne_true)

/-- A numeral of one digit too many is neither printed nor reported. -/
theorem command_fails_of_long_numeral :
    let program := String.ofList (List.replicate 4301 '1')
    Request.ofArguments ["--", program] = .ok (.evaluate program false none none) ∧
      run .standard unset ["--", program] = ⟨"", "", .error .tooManyDigits⟩ := by
  intro program
  have asked := ofArguments_separator program
  have spelled : program = String.ofList ((List.replicate 4301 1).map Nat.digitChar) := by
    rw [List.map_replicate, show Nat.digitChar 1 = '1' from rfl]
  have small : ∀ digit ∈ List.replicate 4301 1, digit < 10 := by
    intro digit member
    rw [List.eq_of_mem_replicate member]
    decide
  have long : Text.digitLimit < (List.replicate 4301 1).length := by
    rw [List.length_replicate]
    decide
  have scanned := Token.scan_digits (List.ne_nil_of_length_pos (Nat.zero_lt_of_lt long)) small
  have failed : evaluateSource .standard program (.start .standard 0) =
      .error .tooManyDigits (.start .standard 0) :=
    evaluateSource_of_isOverlong rfl (spelled ▸ scanned)
      (spelled ▸ Token.isOverlong_digits long small) _
  refine ⟨asked, ?_⟩
  rw [run_eq asked]
  exact evaluateAndShow_unreported failed rfl

end ScopedLisp.CommandLine
