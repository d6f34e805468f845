import ScopedLisp.Failure
import ScopedLisp.Text.Capital
import ScopedLisp.Text.Numeral

/-!
# Settings

Two variables of the environment set the step budget and the level of interest in log records.
A variable that is absent or blank leaves the default in force.
-/

namespace ScopedLisp

/-- The contents of the variables that the interpreter reads. -/
structure Settings where
  maxSteps : Option String
  logLevel : Option String
  deriving DecidableEq, Repr

namespace Settings

def maxStepsName : String := "HOOT_MAX_STEPS"

def logLevelName : String := "HOOT_LOG_LEVEL"

/-- The integer in a variable, or `default` if there is nothing in it. -/
def integer (name : String) (content : Option String) (default : Int) : Except Failure Int :=
  match content with
  | none => .ok default
  | some text =>
    let body := Text.trim text
    if body.isEmpty then .ok default
    else
      match Text.Numeral.read body with
      | .ok value => .ok value
      | .error _ => .error (.badSetting (.notAnInteger name text))

/-- The step limit. A negative setting means the same as zero, no limit. -/
def stepLimit (settings : Settings) : Except Failure Int :=
  (integer maxStepsName settings.maxSteps 0).map (max 0)

/-- The named levels. A record is shown if its level is at least the one that is set. -/
def levels : List (String × Int) :=
  [("CRITICAL", 50), ("FATAL", 50), ("ERROR", 40), ("WARNING", 30), ("WARN", 30), ("INFO", 20),
   ("DEBUG", 10), ("NOTSET", 0)]

/-- The level of all records of a session. -/
def debugLevel : Int := 10

/-- The level that is set when nothing else is. -/
def defaultLevel : Int := 30

/-- The level of interest, by number or by name in any case. -/
def level (settings : Settings) : Except Failure Int :=
  let text := Text.trim (settings.logLevel.getD "")
  if text.isEmpty then .ok defaultLevel
  else if text.toList.all Text.isDigitLike then
    match Text.Numeral.read text with
    | .ok value => .ok value
    | .error .malformed => .error (.badSetting (.badNumeral text))
    | .error .tooLong => .error .tooManyDigits
  else
    match levels.lookup (Text.capitals text) with
    | some value => .ok value
    | none => .error (.badSetting (.unknownLevelVariable logLevelName text))

end Settings

end ScopedLisp
