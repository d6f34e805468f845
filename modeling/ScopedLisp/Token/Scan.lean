import ScopedLisp.Listing
import ScopedLisp.Token
import ScopedLisp.Text.Blank

/-!
# Tokens of a source text

A text is cut into lexemes from left to right. Blanks, line comments, which run from a semicolon
to the end of the line, and block comments between `#|` and `|#`, which nest, yield no token. At
each place the first class of lexeme that fits is taken, in the order of `lexemeAt`. Scanning
ends early at a character that starts no lexeme, which is a comma or the mark of a string that
is never closed, and at a block comment that is never closed.
-/

namespace ScopedLisp

open Text (isBlank)

namespace Lexeme

/-- The characters that end a character literal or a boolean. -/
def isDelimiter (c : Char) : Bool := isBlank c || ['\x27', '(', ')', '\x22', ';'].contains c

/-- The characters that symbols and numerals are made of. -/
def isSymbolChar (c : Char) : Bool := !isDelimiter c && c != ','

/-- The number of characters up to the end of a block comment of which `depth` levels are
open. -/
def blockLength : Nat → List Char → Option Nat
  | 0, _ => some 0
  | _ + 1, [] => none
  | depth + 1, '#' :: '|' :: rest => (blockLength (depth + 2) rest).map (· + 2)
  | depth + 1, '|' :: '#' :: rest => (blockLength depth rest).map (· + 2)
  | depth + 1, _ :: rest => (blockLength (depth + 1) rest).map (· + 1)

/-- The number of characters of a string literal after its opening mark. A backslash takes the
next character with it. -/
def stringLength : List Char → Option Nat
  | [] => none
  | '\x22' :: _ => some 1
  | '\\' :: _ :: rest => (stringLength rest).map (· + 2)
  | _ :: rest => (stringLength rest).map (· + 1)

/-- The number of characters of a character literal after `#\`: all up to a delimiter, or a
single delimiter that is not blank. -/
def characterLength (cs : List Char) : Option Nat :=
  match cs.takeWhile (!isDelimiter ·) with
  | c :: run => some (c :: run).length
  | [] => if (cs.head?.map isBlank).getD true then none else some 1

/-- What may stand between `#` and a delimiter in a boolean. -/
def booleanNames : List (List Char) :=
  [['t', 'r', 'u', 'e'], ['f', 'a', 'l', 's', 'e'], ['t'], ['f']]

end Lexeme

/-- A lexeme: the kind of its token, if it yields one, and the number of characters after its
first one. -/
structure Lexeme where
  kind : Option TokenKind
  more : Nat
  deriving DecidableEq, Repr

namespace Lexeme

/-- A lexeme that begins with `#`. -/
def afterHash (rest : List Char) : Except SourceDefect Lexeme :=
  let symbol : Lexeme := ⟨some .symbol, (rest.takeWhile isSymbolChar).length⟩
  match rest with
  | '|' :: comment =>
    match blockLength 1 comment with
    | some length => .ok ⟨none, length + 1⟩
    | none => .error .unterminatedComment
  | '\\' :: name =>
    match characterLength name with
    | some length => .ok ⟨some .character, length + 1⟩
    | none => .ok symbol
  | _ =>
    let run := rest.takeWhile (!isDelimiter ·)
    if booleanNames.contains run then .ok ⟨some .boolean, run.length⟩ else .ok symbol

/-- The lexeme that begins with `c` at `position` and goes on in `rest`. -/
def lexemeAt (position : Nat) (c : Char) (rest : List Char) : Except SourceDefect Lexeme :=
  if isBlank c then .ok ⟨none, 0⟩
  else if c = ';' then .ok ⟨none, (rest.takeWhile (· != '\n')).length⟩
  else if c = '\x27' then .ok ⟨some .quote, 0⟩
  else if c = '(' then .ok ⟨some .openList, 0⟩
  else if c = ')' then .ok ⟨some .closeList, 0⟩
  else if c = '\x22' then
    match stringLength rest with
    | some length => .ok ⟨some .string, length⟩
    | none => .error (.unexpectedChar position c)
  else if c = '#' then afterHash rest
  else if c = ',' then .error (.unexpectedChar position c)
  else .ok ⟨some .symbol, (rest.takeWhile isSymbolChar).length⟩

end Lexeme

namespace Token

/-- The tokens of the characters that stand from `position` on. -/
def scanFrom (position : Nat) (cs : List Char) : Listing Token :=
  match cs with
  | [] => .empty
  | c :: rest =>
    match Lexeme.lexemeAt position c rest with
    | .error defect => .failed (.malformedSource defect)
    | .ok lexeme =>
      let following := scanFrom (position + 1 + lexeme.more) (rest.drop lexeme.more)
      match lexeme.kind with
      | some kind => following.cons ⟨kind, String.ofList (c :: rest.take lexeme.more)⟩
      | none => following
termination_by cs.length
decreasing_by
  simp only [List.length_drop, List.length_cons]
  omega

/-- The tokens of a source text. -/
def scan (source : String) : Listing Token := scanFrom 0 source.toList

end Token

end ScopedLisp
