import ScopedLisp.Text.CodeRange

/-!
# Blanks

The white space of the language: every character of the Unicode white-space property together
with the four information separators U+001C to U+001F. Blanks separate lexemes, and a setting
is read without the blanks around it.
-/

namespace ScopedLisp.Text

def blankRanges : List CodeRange :=
  [⟨0x09, 0x0d⟩, ⟨0x1c, 0x20⟩, ⟨0x85, 0x85⟩, ⟨0xa0, 0xa0⟩, ⟨0x1680, 0x1680⟩, ⟨0x2000, 0x200a⟩,
   ⟨0x2028, 0x2029⟩, ⟨0x202f, 0x202f⟩, ⟨0x205f, 0x205f⟩, ⟨0x3000, 0x3000⟩]

/-- White space. -/
def isBlank (c : Char) : Bool := covered blankRanges c

/-- One of the four separators of the ASCII control block, which are blank except around a
numeral. -/
def isSeparator (c : Char) : Bool := (CodeRange.mk 0x1c 0x1f).covers c.toNat

/-- The list without the longest runs at both ends whose members satisfy `p`. -/
def trimBy (p : Char → Bool) (cs : List Char) : List Char :=
  ((cs.dropWhile p).reverse.dropWhile p).reverse

/-- The text without the blanks around it. -/
def trim (text : String) : String := String.ofList (trimBy isBlank text.toList)

end ScopedLisp.Text
