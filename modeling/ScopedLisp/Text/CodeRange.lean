/-!
# Ranges of code points

The character classes of the Unicode standard are unions of intervals of code points.
A class is given here as the list of its maximal intervals in increasing order.
-/

namespace ScopedLisp.Text

/-- The code points from `first` to `last`, both included. -/
structure CodeRange where
  first : Nat
  last : Nat
  deriving DecidableEq, Repr

/-- The code point `n` lies in the interval. -/
def CodeRange.covers (range : CodeRange) (n : Nat) : Bool :=
  range.first ≤ n && n ≤ range.last

/-- Some interval of the table covers the character. -/
def covered (table : List CodeRange) (c : Char) : Bool :=
  table.any (·.covers c.toNat)

end ScopedLisp.Text
