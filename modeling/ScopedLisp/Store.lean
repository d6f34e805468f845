import ScopedLisp.Heap
import ScopedLisp.Symbols
import ScopedLisp.Texts

/-!
# The store

The three tables that only grow: the heap, the symbols and the texts. What an object looks like
when it is printed depends on the store alone.
-/

namespace ScopedLisp

structure Store where
  heap : Heap
  symbols : Symbols
  texts : Texts
  deriving DecidableEq, Repr

/-- The store of a new session. -/
def Store.initial (owner : Nat) : Store := ⟨.initial owner, .initial owner, .initial owner⟩

end ScopedLisp
