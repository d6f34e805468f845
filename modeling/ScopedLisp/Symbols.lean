import ScopedLisp.Failure

/-!
# Symbols

The table of symbol names. Each name has one handle, given when the name is first interned.
-/

namespace ScopedLisp

structure Symbols where
  owner : Nat
  names : List String
  deriving DecidableEq, Repr

namespace Symbols

def initial (owner : Nat) : Symbols := ⟨owner, []⟩

def size (symbols : Symbols) : Nat := symbols.names.length

def handleAt (symbols : Symbols) (i : Nat) : Handle := ⟨.symbols, i, symbols.owner⟩

/-- The name has been interned. -/
def has (symbols : Symbols) (name : String) : Bool := symbols.names.contains name

/-- The symbol of the name, which is entered into the table if it is new. -/
def intern (symbols : Symbols) (name : String) : Symbols × Handle :=
  match symbols.names.idxOf? name with
  | some i => (symbols, symbols.handleAt i)
  | none => ({ symbols with names := symbols.names ++ [name] }, symbols.handleAt symbols.size)

/-- The name of a symbol. -/
def name (symbols : Symbols) (h : Handle) : Except Failure String :=
  match h.position? .symbols symbols.owner symbols.names.length with
  | some i => .ok symbols.names[i]
  | none => .error (.unknownHandle h .symbols)

/-- The names in the order in which they were interned, with their handles. -/
def entries (symbols : Symbols) : List (String × Handle) :=
  symbols.names.zipIdx.map fun (name, i) => (name, symbols.handleAt i)

end Symbols

end ScopedLisp
