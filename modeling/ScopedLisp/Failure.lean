import ScopedLisp.Handle
import ScopedLisp.Text.Quoted

/-!
# Failures

Everything that can stop the interpreter, by cause. Three families are kept apart: mistakes of
the program that is being run, which a host is expected to report; faults, which mean that a
handle or a scope was used that the session never issued; and limits and misuse on the side of
the host. A message is a function of the cause alone.

The integers of a message (counts, handles, the step budget) are written however long they are. The
digit limit of numerals is not applied to them: no count and no issued handle comes near it, a
numeral that sets the budget is itself within it, and a budget that a host sets otherwise is taken
to be.
-/

namespace ScopedLisp

open Text (quoted)

/-- What is wrong with a source text. -/
inductive SourceDefect where
  /-- No lexeme starts with this character; positions count from zero. -/
  | unexpectedChar (position : Nat) (c : Char)
  | unterminatedComment
  | dotOutsideList
  | nothingQuoted
  | unmatchedOpen
  | nothingBeforeDot
  | nothingAfterDot
  | tailNotClosed
  | unexpectedClose
  | unknownCharacterName (name : String)
  | unknownEscape (c : Char)
  | unknownToken (kind text : String)
  | noDatum
  | inputAfterDatum (text : String)
  deriving DecidableEq, Repr

def SourceDefect.message : SourceDefect → String
  | .unexpectedChar position c => s!"Unexpected char at {position}: " ++ quoted (String.singleton c)
  | .unterminatedComment => "Unterminated multi-line comment"
  | .dotOutsideList => "Unexpected '.' outside a list"
  | .nothingQuoted => "Expected a datum after quote"
  | .unmatchedOpen => "Unmatched '('"
  | .nothingBeforeDot => "Expected a datum before '.'"
  | .nothingAfterDot => "Expected a datum after '.'"
  | .tailNotClosed => "Expected ')' after dotted cdr"
  | .unexpectedClose => "Unexpected ')'"
  | .unknownCharacterName name => "Unknown character name: #\\" ++ name
  | .unknownEscape c => "Unknown string escape \\" ++ String.singleton c
  | .unknownToken kind text => s!"Unknown token: {kind} {text}"
  | .noDatum => "Expected a datum, found end of input"
  | .inputAfterDatum text => "Unexpected input after datum: " ++ quoted text

/-- The two kinds of reserved word. -/
inductive Role where
  | specialForm | operator
  deriving DecidableEq, Repr

def Role.title : Role → String
  | .specialForm => "special form"
  | .operator => "builtin procedure"

/-- Why a form is refused although its operands were counted right. -/
inductive Unsupported where
  | unregistered (role : Role)
  | duplicateParameter (name : String)
  | sequenceUnregistered
  deriving DecidableEq, Repr

def Unsupported.message : Unsupported → String
  | .unregistered role => s!"no {role.title} registered under this name"
  | .duplicateParameter name => s!"duplicate parameter {name}"
  | .sequenceUnregistered => "multiple body forms need a registered begin"

/-- How a scope operation leaves the stack of active scopes. -/
inductive Underflow where
  | exitGlobal | unwindGlobal | nothingEntered
  deriving DecidableEq, Repr

def Underflow.message : Underflow → String
  | .exitGlobal => "cannot exit the global scope"
  | .unwindGlobal => "cannot unwind past the global scope"
  | .nothingEntered => "no scope has been entered"

/-- What is wrong with a setting. -/
inductive SettingDefect where
  | notAnInteger (name text : String)
  | unknownLevelVariable (name text : String)
  /-- Digit-like text that is no numeral. -/
  | badNumeral (text : String)
  | unknownLevelOption (text : String)
  deriving DecidableEq, Repr

/-- The longest quotation of a bad numeral. -/
def numeralQuotationLimit : Nat := 200

def SettingDefect.message : SettingDefect → String
  | .notAnInteger name text => s!"{name} must be an integer, got " ++ quoted text
  | .unknownLevelVariable name text => s!"{name}: unknown level " ++ quoted text
  | .badNumeral text =>
    "invalid literal for int() with base 10: "
      ++ String.ofList ((quoted text).toList.take numeralQuotationLimit)
  | .unknownLevelOption text => "Unknown level: " ++ quoted text

inductive Failure where
  -- mistakes of the program
  | unboundVariable (name : String)
  | notCallable (operator : String)
  | typeMismatch (expected actual : String)
  /-- A list of operands or arguments ends in the object `tail`, which is no list. -/
  | improperList (tail : Handle)
  /-- A wrong number of operands. `expected` is a lower bound if `variadic` holds, and an empty
  `name` is not shown. -/
  | arityMismatch (name : String) (expected : Int) (variadic : Bool) (actual : Nat)
  | unsupportedForm (form : String) (reason : Unsupported)
  | stepLimitExceeded (limit : Int)
  | recursionDepthExceeded
  | malformedSource (defect : SourceDefect)
  -- faults
  | unknownHandle (h : Handle) (table : Table)
  | scopeUnderflow (reason : Underflow)
  /-- The argument list turned out shorter than it was counted. -/
  | notAPair (h : Handle)
  -- limits and misuse on the side of the host
  | stackExhausted
  /-- A walk over links that do not lead to smaller handles was given up. -/
  | endlessWalk
  | tooManyDigits
  /-- A value of the host that had to be shown complained instead. -/
  | notShown (complaint : String)
  | notADatum (shown : String)
  | nameTaken (name : String) (role : Role)
  | badSetting (defect : SettingDefect)
  deriving DecidableEq, Repr

namespace Failure

inductive Family where
  | program | fault | host
  deriving DecidableEq, Repr

/-- Which of the three families a failure belongs to. -/
def family : Failure → Family
  | .unboundVariable _ | .notCallable _ | .typeMismatch _ _ | .improperList _
  | .arityMismatch _ _ _ _ | .unsupportedForm _ _ | .stepLimitExceeded _
  | .recursionDepthExceeded | .malformedSource _ => .program
  | .unknownHandle _ _ | .scopeUnderflow _ | .notAPair _ => .fault
  | .stackExhausted | .endlessWalk | .tooManyDigits | .notShown _ | .notADatum _
  | .nameTaken _ _ | .badSetting _ => .host

def message : Failure → String
  | .unboundVariable name => s!"unbound variable: {name}"
  | .notCallable operator => s!"not callable: {operator}"
  | .typeMismatch expected actual => s!"type mismatch: expected {expected}, got {actual}"
  | .improperList tail =>
    s!"malformed argument list: list ends in a non-list tail at {tail.display}"
  | .arityMismatch name expected variadic actual =>
    (if name.isEmpty then "" else s!"{name}: ")
      ++ "arity mismatch: expected " ++ (if variadic then "at least " else "")
      ++ s!"{expected} argument(s), got {actual}"
  | .unsupportedForm form reason => s!"unsupported form {form}: {reason.message}"
  | .stepLimitExceeded limit => s!"evaluation exceeded {limit} steps"
  | .recursionDepthExceeded => "nesting or recursion exhausted the host stack (no tail calls)"
  | .malformedSource defect => defect.message
  | .unknownHandle h table => s!"{h.display} was not issued by this {table.title}"
  | .scopeUnderflow reason => reason.message
  | .notAPair h => s!"{h.display} is not a pair"
  | .stackExhausted => "the host stack is exhausted"
  | .endlessWalk => "the links walked over do not end"
  | .tooManyDigits => "the integer has too many digits to be converted"
  | .notShown complaint => complaint
  | .notADatum shown => s!"cannot lower {shown}: not a parsed datum"
  | .nameTaken name role => quoted name ++ s!" is already a {role.title}"
  | .badSetting defect => defect.message

end Failure

end ScopedLisp
