import ScopedLisp.Failure

/-!
# Texts

The table of string contents. Every entry is new: two equal literals do not share one.
-/

namespace ScopedLisp

structure Texts where
  owner : Nat
  contents : Array String
  deriving DecidableEq, Repr

namespace Texts

def initial (owner : Nat) : Texts := ⟨owner, #[]⟩

def size (texts : Texts) : Nat := texts.contents.size

def handleAt (texts : Texts) (i : Nat) : Handle := ⟨.texts, i, texts.owner⟩

/-- Enters a text. -/
def insert (texts : Texts) (text : String) : Texts × Handle :=
  ({ texts with contents := texts.contents.push text }, texts.handleAt texts.size)

/-- The text of a handle. -/
def get (texts : Texts) (h : Handle) : Except Failure String :=
  match h.position? .texts texts.owner texts.contents.size with
  | some i => .ok texts.contents[i]
  | none => .error (.unknownHandle h .texts)

/-- The entries in order with their handles. -/
def entries (texts : Texts) : List (Handle × String) :=
  texts.contents.toList.zipIdx.map fun (text, i) => (texts.handleAt i, text)

end Texts

end ScopedLisp
