import ScopedLisp.CommandLine.Arguments
import ScopedLisp.CommandLine.Usage
import ScopedLisp.Program
import ScopedLisp.Session.Report
import ScopedLisp.Settings

/-!
# The command line

Evaluates a program in a new session and prints its last value. A mistake of the program is
reported on the error channel. The outcome is a value: what is printed on the two channels and
the exit code, or the failure that got in between.
-/

namespace ScopedLisp.CommandLine

/-- What a run of the command leaves behind. -/
structure Outcome where
  output : String
  errors : String
  ending : Except Failure Nat

/-- The level of interest: the option's, which must be a name, or that of the settings. -/
def chosenLevel (settings : Settings) : Option String → Except Failure Int
  | none => settings.level
  | some text =>
    if text.isEmpty then settings.level
    else
      let name := Text.capitals text
      match Settings.levels.lookup name with
      | some level => .ok level
      | none => .error (.badSetting (.unknownLevelOption name))

/-- The step limit: the option's as it is, or that of the settings. -/
def chosenLimit (settings : Settings) : Option Int → Except Failure Int
  | some limit => .ok limit
  | none => settings.stepLimit

/-- The records of a session that are shown at a level. -/
def shownRecords (level : Int) (session : Session) : String :=
  if level ≤ Settings.debugLevel then
    String.join (session.journal.toList.map fun event => event.line ++ "\n")
  else ""

/-- The lines that show the state of the session, if they are asked for. -/
def shownState (dump : Bool) (session : Session) : Except Failure String :=
  if dump then session.describeState.map (· ++ "\n") else .ok ""

/-- Evaluates a program in a session and shows what came of it. -/
def evaluateAndShow (host : Host) (program : String) (dump : Bool) (level : Int)
    (session : Session) : Outcome :=
  match Routine.evaluateSource host program session with
  | .ok result after =>
    let records := shownRecords level after
    match after.store.render result with
    | .error failure => ⟨"", records, .error failure⟩
    | .ok text =>
      match shownState dump after with
      | .error failure => ⟨text ++ "\n", records, .error failure⟩
      | .ok state => ⟨text ++ "\n" ++ state, records, .ok 0⟩
  | .error failure after =>
    let records := shownRecords level after
    match failure.family with
    | .program =>
      let errors := records ++ "error: " ++ failure.message ++ "\n"
      match shownState dump after with
      | .error other => ⟨"", errors, .error other⟩
      | .ok state => ⟨"", errors ++ state, .ok 1⟩
    | _ => ⟨"", records, .error failure⟩

/-- Runs the command. -/
def run (host : Host) (settings : Settings) (arguments : List String) : Outcome :=
  match Request.ofArguments arguments with
  | .error mistake =>
    ⟨"", usage ++ programName ++ ": error: " ++ mistake.message ++ "\n", .ok 2⟩
  | .ok .help => ⟨help, "", .ok 0⟩
  | .ok (.evaluate program dump maxSteps logLevel) =>
    match chosenLevel settings logLevel with
    | .error failure => ⟨"", "", .error failure⟩
    | .ok level =>
      match chosenLimit settings maxSteps with
      | .error failure => ⟨"", "", .error failure⟩
      | .ok limit => evaluateAndShow host program dump level (.start .standard limit)

end ScopedLisp.CommandLine
