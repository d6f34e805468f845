import ScopedLisp.Datum.Reader
import ScopedLisp.Eval
import ScopedLisp.Session.Embed

/-!
# Programs

A program is a source text. Its data are read and evaluated one at a time, so what was evaluated
before a mistake in the text keeps its effect. The definitions of one program are there for the
next one that is evaluated in the same session.
-/

namespace ScopedLisp

/-- The stacks of the machine that runs the interpreter. -/
structure Host where
  reading : Reader.ReadStack
  evaluating : EvalStack

/-- Room for nine hundred nested lists in a source and for some hundreds of nested
evaluations. -/
def Host.standard : Host := ⟨.withRoom 900, .withRoom 330⟩

namespace Routine

/-- Evaluates the expression at a handle. -/
def evaluateAt (host : Host) (expr : Handle) : Routine Handle :=
  guarded (evaluate host.evaluating host.evaluating.room expr)

/-- Places a datum in the heap and evaluates it. -/
def evaluateDatum (host : Host) (datum : Datum) : Routine Handle := do
  evaluateAt host (← embed datum)

/-- The next datum of a stream, if there is one, and the stream behind it. -/
def readNext (host : Host) (stream : TokenStream) : Routine (Option (Datum × TokenStream)) :=
  guarded <|
    match Reader.datum? host.reading stream with
    | .ok datum left => pure (datum.map (·, left))
    | .error failure _ => throw failure

/-- Evaluates the next `rounds` data of a stream at most, of which `forms` came before and left
`result`. -/
def evaluateStream (host : Host) : Nat → Nat → TokenStream → Handle → Routine (Nat × Handle)
  | 0, forms, _, result => pure (forms, result)
  | rounds + 1, forms, stream, result => do
    match ← readNext host stream with
    | none => return (forms, result)
    | some (datum, left) =>
      let value ← evaluateDatum host datum
      evaluateStream host rounds (forms + 1) left value

/-- Evaluates all data of a source text and returns the last value, or the empty list if there is
none. Each datum takes a token, so one round more than there are tokens finds the end. -/
def evaluateSource (host : Host) (source : String) : Routine Handle := do
  let stream := TokenStream.ofSource source
  let (forms, result) ← evaluateStream host (stream.items.length + 1) 0 stream (← nil)
  report (.programEvaluated forms (← get).steps)
  return result

/-- Places the one datum of a program in the heap without evaluating it. -/
def loadDatum (datum : Datum) : Routine Handle := do
  let program ← embed datum
  report (.programLoaded (← get).store.heap.size)
  return program

/-- Loads the one datum of a program and evaluates it. -/
def runDatum (host : Host) (datum : Datum) : Routine Handle := do
  evaluateAt host (← loadDatum datum)

end Routine

end ScopedLisp
