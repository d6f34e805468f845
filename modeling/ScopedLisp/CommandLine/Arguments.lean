import ScopedLisp.Text.Numeral
import ScopedLisp.Text.Quoted

/-!
# Arguments of the command line

One positional argument, the program, and four options that may stand anywhere. An option may be
abbreviated as long as it is clear which one is meant, and a value is given in the next argument
or after an equals sign. Two hyphens end the options.

Every argument is first classified on its own; an ambiguous abbreviation is refused there. The
classified arguments are then consumed from left to right, and the first mistake or request for
help ends the matter. Only then are a missing program and superfluous arguments noticed.
-/

namespace ScopedLisp.CommandLine

open Text (quoted)

inductive Flag where
  | help | dump | maxSteps | logLevel
  deriving DecidableEq, Repr

/-- The spellings of the options, in the order in which they are listed. -/
def Flag.spellings : List (String × Flag) :=
  [("-h", .help), ("--help", .help), ("--dump", .dump), ("--max-steps", .maxSteps),
   ("--log-level", .logLevel)]

/-- How messages name the option. -/
def Flag.title : Flag → String
  | .help => "-h/--help"
  | .dump => "--dump"
  | .maxSteps => "--max-steps"
  | .logLevel => "--log-level"

/-- What is attached to an option within its own argument. -/
inductive Attached where
  | nothing
  /-- What follows a longer spelling and an equals sign. -/
  | value (text : String)
  /-- What follows a one-letter option, be it directly or after an equals sign. -/
  | letters (text : List Char)
  deriving DecidableEq, Repr

/-- The kinds of argument. -/
inductive Argument where
  | plain
  | option (flag : Flag) (attached : Attached)
  | unknownOption
  /-- The first pair of hyphens that stands alone. -/
  | separator
  deriving DecidableEq, Repr

/-- Why the arguments are refused. -/
inductive UsageError where
  | ambiguous (argument : String) (candidates : List String)
  | valueIgnored (flag : Flag) (value : String)
  | valueMissing (flag : Flag)
  | valueNotInteger (flag : Flag) (value : String)
  | programMissing
  | unrecognized (arguments : List String)
  deriving DecidableEq, Repr

def UsageError.message : UsageError → String
  | .ambiguous argument candidates =>
    s!"ambiguous option: {argument} could match " ++ ", ".intercalate candidates
  | .valueIgnored flag value =>
    s!"argument {flag.title}: ignored explicit argument " ++ quoted value
  | .valueMissing flag => s!"argument {flag.title}: expected one argument"
  | .valueNotInteger flag value => s!"argument {flag.title}: invalid int value: " ++ quoted value
  | .programMissing => "the following arguments are required: program"
  | .unrecognized arguments => "unrecognized arguments: " ++ " ".intercalate arguments

/-! ### Classifying -/

/-- The text without a line feed at its end. -/
def dropFinalLineFeed (cs : List Char) : List Char :=
  if cs.getLast? = some '\n' then cs.dropLast else cs

/-- One or more digits. -/
def isDigits (cs : List Char) : Bool := !cs.isEmpty && cs.all Text.isDecimalDigit

/-- A hyphen and digits, the last of which may stand after a point. -/
def isNegativeNumber (cs : List Char) : Bool :=
  match dropFinalLineFeed cs with
  | '-' :: body =>
    isDigits body ||
      (match body.dropWhile Text.isDecimalDigit with
       | '.' :: places => isDigits places
       | _ => false)
  | _ => false

/-- The part before the first equals sign and the part after it, if there is one. -/
def splitAtEquals (cs : List Char) : List Char × Option (List Char) :=
  match cs.dropWhile (· != '=') with
  | _ :: value => (cs.takeWhile (· != '='), some value)
  | [] => (cs, none)

/-- Two hyphens are in front. -/
def startsLong (cs : List Char) : Bool := ['-', '-'].isPrefixOf cs

/-- What is attached to an option of this spelling after an equals sign. -/
def attachedTo (spelling : String) : Option (List Char) → Attached
  | none => .nothing
  | some text =>
    if startsLong spelling.toList then .value (String.ofList text) else .letters text

/-- What an argument is that has a hyphen in front and more after it, but is neither the spelling
of an option nor one with an attached value. -/
def classifyUnlisted (argument : String) (cs : List Char) : Except UsageError Argument :=
  let (stem, value) := splitAtEquals cs
  let candidates :=
    if startsLong cs then
      (Flag.spellings.filter fun (spelling, _) => stem.isPrefixOf spelling.toList).map
        fun (spelling, flag) => (spelling, flag, attachedTo spelling value)
    else
      (Flag.spellings.filter fun (spelling, _) => spelling.toList == cs.take 2).map
        fun (spelling, flag) => (spelling, flag, Attached.letters (cs.drop 2))
  match candidates with
  | [(_, flag, attached)] => .ok (.option flag attached)
  | _ :: _ => .error (.ambiguous argument (candidates.map (·.1)))
  | [] =>
    if isNegativeNumber cs || cs.contains ' ' then .ok .plain else .ok .unknownOption

/-- What an argument before the separator is. -/
def classify (argument : String) : Except UsageError Argument :=
  match argument.toList with
  | '-' :: body =>
    match Flag.spellings.lookup argument with
    | some flag => .ok (.option flag .nothing)
    | none =>
      if body.isEmpty then .ok .plain
      else
        let (stem, value) := splitAtEquals argument.toList
        let spelling := String.ofList stem
        match Flag.spellings.lookup spelling with
        | some flag => .ok (.option flag (attachedTo spelling value))
        | none => classifyUnlisted argument argument.toList
  | _ => .ok .plain

/-- The arguments with what each of them is. Behind the separator all are plain. -/
def classifyAll : List String → Except UsageError (List (Argument × String))
  | [] => .ok []
  | argument :: rest =>
    if argument = "--" then
      .ok ((.separator, argument) :: rest.map fun other => (.plain, other))
    else do
      let kind ← classify argument
      return (kind, argument) :: (← classifyAll rest)

/-! ### Consuming -/

/-- What the arguments ask for. -/
structure Options where
  program : Option String
  dump : Bool
  maxSteps : Option Int
  logLevel : Option String
  /-- Arguments that nothing asked for. -/
  extras : List String
  deriving DecidableEq, Repr

/-- Nothing has been asked for. -/
def Options.initial : Options := ⟨none, false, none, none, []⟩

/-- Letters attached to the help option ask for help once more. What is left from the first other
one on is refused, and so is an empty text. -/
def checkLetters (letters : List Char) : Except UsageError Unit :=
  if !letters.isEmpty && letters.all (· == 'h') then .ok ()
  else .error (.valueIgnored .help (String.ofList (letters.dropWhile (· == 'h'))))

/-- Gives an option its value. Two hyphens stand for no value: the number of steps is then not
limited, and the level is not chosen. They can only be attached, as alone they are the
separator. -/
def Options.setValue (options : Options) (flag : Flag) (text : String) :
    Except UsageError Options :=
  match flag with
  | .maxSteps =>
    if text = "--" then .ok { options with maxSteps := some 0 }
    else
      match Text.Numeral.read text with
      | .ok value => .ok { options with maxSteps := some value }
      | .error _ => .error (.valueNotInteger flag text)
  | .logLevel => .ok { options with logLevel := if text = "--" then none else some text }
  | .help | .dump => .ok options

/-- Consumes the arguments. The result is nothing if help is asked for. The separator is dropped
next to the program and superfluous elsewhere. -/
def consume (options : Options) : List (Argument × String) → Except UsageError (Option Options)
  | [] => .ok (some options)
  | (.plain, argument) :: rest =>
    match options.program, rest with
    | none, (.separator, _) :: others =>
      .ok (some { options with
        program := some argument
        extras := options.extras ++ others.map (·.2) })
    | none, _ => consume { options with program := some argument } rest
    | some _, _ => consume { options with extras := options.extras ++ [argument] } rest
  | (.separator, argument) :: rest =>
    match options.program, rest with
    | none, (_, program) :: others =>
      .ok (some { options with
        program := some program
        extras := options.extras ++ others.map (·.2) })
    | _, _ => .ok (some { options with extras := options.extras ++ argument :: rest.map (·.2) })
  | (.unknownOption, argument) :: rest =>
    consume { options with extras := options.extras ++ [argument] } rest
  | (.option .help attached, _) :: _ =>
    match attached with
    | .nothing => .ok none
    | .value text => .error (.valueIgnored .help text)
    | .letters letters => do
      checkLetters letters
      return none
  | (.option .dump attached, _) :: rest =>
    match attached with
    | .value text => .error (.valueIgnored .dump text)
    | _ => consume { options with dump := true } rest
  | (.option flag (.value text), _) :: rest => do
    consume (← options.setValue flag text) rest
  | (.option flag _, _) :: (.plain, text) :: rest => do
    consume (← options.setValue flag text) rest
  | (.option flag _, _) :: _ => .error (.valueMissing flag)

/-- What the command line asks for. -/
inductive Request where
  | help
  | evaluate (program : String) (dump : Bool) (maxSteps : Option Int) (logLevel : Option String)
  deriving DecidableEq, Repr

/-- Reads the command line. -/
def Request.ofArguments (arguments : List String) : Except UsageError Request := do
  match ← consume .initial (← classifyAll arguments) with
  | none => return .help
  | some options =>
    match options.program with
    | none => throw .programMissing
    | some program =>
      if options.extras.isEmpty then
        return .evaluate program options.dump options.maxSteps options.logLevel
      else throw (.unrecognized options.extras)

end ScopedLisp.CommandLine
