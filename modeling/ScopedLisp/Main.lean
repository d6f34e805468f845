import ScopedLisp.CommandLine

/-!
# The program

Connects the command line to the process: its arguments, its variables and its channels.
-/

open ScopedLisp in
/-- Evaluates the program that is given as an argument. -/
def main (arguments : List String) : IO UInt32 := do
  let settings : Settings :=
    ⟨← IO.getEnv Settings.maxStepsName, ← IO.getEnv Settings.logLevelName⟩
  let outcome := CommandLine.run .standard settings arguments
  IO.print outcome.output
  IO.eprint outcome.errors
  match outcome.ending with
  | .ok code => return code.toUInt32
  | .error failure =>
    IO.eprintln failure.message
    return 1
