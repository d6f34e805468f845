import ScopedLisp.Token.Scan

/-!
# Token streams

The tokens that are still to be read and the failure that waits behind them. The failure is
reported once, to whoever first asks for a token when none is left; from then on the stream is
at its end.
-/

namespace ScopedLisp

abbrev TokenStream := Listing Token

/-- The stream of a source text. -/
def TokenStream.ofSource (source : String) : TokenStream := Token.scan source

/-- Computations that consume a token stream. What a failed computation has consumed stays
consumed. -/
abbrev Reader := EStateM Failure TokenStream

namespace Reader

/-- Reports the failure behind the last token, once. -/
def atEnd : Reader (Option Token) := fun stream =>
  match stream.failure with
  | none => .ok none stream
  | some failure => .error failure { stream with failure := none }

/-- The next token, which stays in the stream. -/
def peek : Reader (Option Token) := fun stream =>
  match stream.items with
  | token :: _ => .ok (some token) stream
  | [] => atEnd stream

/-- Takes the next token out of the stream. -/
def next : Reader (Option Token) := fun stream =>
  match stream.items with
  | token :: rest => .ok (some token) { stream with items := rest }
  | [] => atEnd stream

end Reader

end ScopedLisp
