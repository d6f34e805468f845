import ScopedLisp.Text.Printable

/-!
# Quoted text

Text inside a message or a record is shown between quotation marks. The mark is the single one,
unless the text holds a single mark and no double one. The mark and the backslash are preceded
by a backslash, line feed, carriage return and tabulator have letters, and every other character
that is not printable is shown by its code point in two, four or eight hexadecimal digits.

Texts consist of characters in the sense of Unicode: a surrogate that stands alone, which some
hosts admit in their texts, is no character.
-/

namespace ScopedLisp.Text

def singleMark : Char := '\x27'

def doubleMark : Char := '\x22'

/-- The mark that quotes the text. -/
def quotationMark (cs : List Char) : Char :=
  if cs.contains singleMark && !cs.contains doubleMark then doubleMark else singleMark

/-- The hexadecimal digits of `n` in lower case, at least `width` of them. -/
def hexadecimal (width n : Nat) : List Char :=
  let digits := Nat.toDigits 16 n
  List.replicate (width - digits.length) '0' ++ digits

/-- An unprintable character by its code point. -/
def codePointEscape (c : Char) : List Char :=
  let n := c.toNat
  if n < 0x100 then '\\' :: 'x' :: hexadecimal 2 n
  else if n < 0x10000 then '\\' :: 'u' :: hexadecimal 4 n
  else '\\' :: 'U' :: hexadecimal 8 n

/-- One character between two marks. -/
def quotedChar (mark c : Char) : List Char :=
  if c == '\\' || c == mark then ['\\', c]
  else if c == '\n' then ['\\', 'n']
  else if c == '\r' then ['\\', 'r']
  else if c == '\t' then ['\\', 't']
  else if isPrintable c then [c]
  else codePointEscape c

/-- The text between quotation marks. -/
def quoted (text : String) : String :=
  let cs := text.toList
  let mark := quotationMark cs
  String.ofList (mark :: cs.flatMap (quotedChar mark) ++ [mark])

end ScopedLisp.Text
