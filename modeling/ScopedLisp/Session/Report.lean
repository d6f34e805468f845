import ScopedLisp.Session

/-!
# The state of a session as text

The symbols, the objects, the texts and the bindings that are visible from the current scope, one
to a line.
-/

namespace ScopedLisp.Session

/-- A number of at least four digits. -/
def lineNumber (n : Nat) : String :=
  let digits := n.repr
  "".pushn '0' (4 - digits.length) ++ digits

def symbolLines (session : Session) : List String :=
  session.store.symbols.entries.zipIdx.map fun ((name, h), i) =>
    s!"\t\t{lineNumber i} {name}: {h.display}\n"

def objectLines (session : Session) : Except Failure (List String) :=
  session.store.heap.entries.zipIdx.mapM fun ((_, record), i) => do
    return s!"\t\t{lineNumber i} " ++ (← record.display) ++ "\n"

def textLines (session : Session) : List String :=
  session.store.texts.entries.zipIdx.map fun ((h, text), i) =>
    s!"\t\t{lineNumber i} {h.display}: " ++ Literal.ofText text ++ "\n"

def bindingLine (session : Session) (symbol value : Handle) : Except Failure String := do
  let name ← session.store.symbols.name symbol
  return s!"\t\t\t{name}: {value.display} = " ++ (← session.store.render value) ++ "\n"

def scopeLines (session : Session) (scope : Handle) (frame : Frame) : Except Failure String := do
  let bindings ← frame.bindings.mapM fun (symbol, value) => session.bindingLine symbol value
  return s!"\t\tScope {scope.index}\n" ++ String.join bindings

/-- The report on a session. -/
def describeState (session : Session) : Except Failure String := do
  let objects ← session.objectLines
  let chain := session.scopes.chain
  let scopes ← chain.items.mapM fun (scope, frame) => session.scopeLines scope frame
  let _ ← chain.all
  return "Runtime:\n\tSymbol Names:\n" ++ String.join session.symbolLines
    ++ "\tObjects:\n" ++ String.join objects
    ++ "\tStrings:\n" ++ String.join session.textLines
    ++ "\tVariables (innermost scope first):\n" ++ String.join scopes

end ScopedLisp.Session
