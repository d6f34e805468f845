import ScopedLisp.Failure

/-!
# Tokens

The words of a source text. A token keeps its whole lexeme, marks included. Seven kinds are
recognised in a text; a stream of tokens may come from elsewhere and carry other kinds.
-/

namespace ScopedLisp

inductive TokenKind where
  | quote | openList | closeList | string | character | boolean | symbol
  /-- A kind that no lexeme has. -/
  | other (name : String)
  deriving DecidableEq, Repr

/-- The kinds of lexeme and their names. -/
def TokenKind.named : List (String × TokenKind) :=
  [("quote", .quote), ("lparen", .openList), ("rparen", .closeList), ("string", .string),
   ("char", .character), ("boolean", .boolean), ("symbol", .symbol)]

def TokenKind.name : TokenKind → String
  | .quote => "quote"
  | .openList => "lparen"
  | .closeList => "rparen"
  | .string => "string"
  | .character => "char"
  | .boolean => "boolean"
  | .symbol => "symbol"
  | .other name => name

def TokenKind.ofName (name : String) : TokenKind := (named.lookup name).getD (.other name)

structure Token where
  kind : TokenKind
  text : String
  deriving DecidableEq, Repr

/-- The dot that introduces the tail of a list. -/
def Token.dot : Token := ⟨.symbol, "."⟩

end ScopedLisp
