import ScopedLisp.CallStack
import ScopedLisp.Datum
import ScopedLisp.Literal
import ScopedLisp.Token.Stream

/-!
# Reading data

A recursive-descent reader from tokens to data. It looks one token ahead, takes no token beyond
the end of a datum, and leaves the offending token in the stream when it refuses one that starts
no datum. Each opening parenthesis and each quote mark takes one nested call.
-/

namespace ScopedLisp.Reader

abbrev ReadStack := CallStack Unit TokenStream

variable {α : Type}

def refuse (defect : SourceDefect) : Reader α := throw (.malformedSource defect)

/-- What a symbol token denotes: an integer if it has the shape of one, an atom otherwise. -/
def symbolDatum (text : String) : Except Failure Datum :=
  if text = "." then .error (.malformedSource .dotOutsideList)
  else if Text.Numeral.isLiteral text.toList then
    match Text.Numeral.ofLiteral text.toList with
    | .ok value => .ok (.integer value)
    | .error _ => .error .tooManyDigits
  else .ok (.atom text)

/-- What a character token denotes: the one character after `#\` or the bearer of the name. -/
def characterDatum (text : String) : Except Failure Datum :=
  let name := String.ofList (text.toList.drop 2)
  if name.length = 1 then .ok (.character name)
  else
    match Literal.characterOfName? name with
    | some c => .ok (.character c)
    | none => .error (.malformedSource (.unknownCharacterName name))

/-- What a string token denotes. -/
def stringDatum (text : String) : Except Failure Datum :=
  match Literal.unescape ((text.toList.drop 1).dropLast) with
  | .ok cs => .ok (.string (String.ofList cs))
  | .error defect => .error (.malformedSource defect)

def booleanDatum (text : String) : Datum := .boolean (text == "#t" || text == "#true")

/-- The end of a list after its dot. `items` have been read, latest first, and `readDatum` reads
a datum that starts with a given token. -/
def readTail (readDatum : Token → Reader Datum) (items : List Datum) : Reader Datum := do
  if items.isEmpty then refuse .nothingBeforeDot
  else
    match ← peek with
    | none => refuse .nothingAfterDot
    | some token =>
      if token.kind = .closeList then refuse .nothingAfterDot
      else
        let tail ← readDatum token
        match ← peek with
        | some ⟨.closeList, _⟩ =>
          let _ ← next
          return .dotted items.reverse tail
        | _ => refuse .tailNotClosed

/-- The rest of a list of which `items` have been read, latest first. Every round takes a token,
so as many rounds as there are tokens, and one more to find the end, are enough. -/
def readItems (readDatum : Token → Reader Datum) : Nat → List Datum → Reader Datum
  | 0, _ => refuse .unmatchedOpen
  | rounds + 1, items => do
    match ← peek with
    | none => refuse .unmatchedOpen
    | some token =>
      if token.kind = .closeList then
        let _ ← next
        return .list items.reverse
      else if token = Token.dot then
        let _ ← next
        readTail readDatum items
      else
        let item ← readDatum token
        readItems readDatum rounds (item :: items)

/-- Fails if the stack, of which `room` nested calls are left, is used up at this moment. -/
def reach (stack : ReadStack) (room : Nat) : Reader Unit := do
  if stack.failsAt () room (← get) then throw .stackExhausted

/-- The datum that starts with `token`, which is next in the stream. -/
def readFrom (stack : ReadStack) : Nat → Token → Reader Datum
  | 0, _ => throw .stackExhausted
  | room + 1, token => do
    reach stack room
    match token.kind with
    | .symbol =>
      let _ ← next
      ofExcept (symbolDatum token.text)
    | .boolean =>
      let _ ← next
      return booleanDatum token.text
    | .character =>
      let _ ← next
      ofExcept (characterDatum token.text)
    | .string =>
      let _ ← next
      ofExcept (stringDatum token.text)
    | .quote =>
      let _ ← next
      match ← peek with
      | none => refuse .nothingQuoted
      | some first => return (← readFrom stack room first).quoted
    | .openList =>
      let _ ← next
      readItems (readFrom stack room) ((← get).items.length + 1) []
    | .closeList => refuse .unexpectedClose
    | .other _ => refuse (.unknownToken token.kind.name token.text)

/-- The next datum, or nothing at the end of the stream. -/
def datum? (stack : ReadStack) : Reader (Option Datum) := do
  reach stack stack.room
  match ← peek with
  | none => return none
  | some token => return some (← readFrom stack stack.room token)

/-- The next `count` data at most, with the failure that ended reading if one did, and the stream
that is left. -/
def dataUpTo (stack : ReadStack) : Nat → TokenStream → Listing Datum × TokenStream
  | 0, stream => (.empty, stream)
  | count + 1, stream =>
    match datum? stack stream with
    | .ok none left => (.empty, left)
    | .ok (some datum) left =>
      let (rest, left) := dataUpTo stack count left
      (rest.cons datum, left)
    | .error failure left => (.failed failure, left)

/-- All data of the stream. Each takes a token, so there are no more data than tokens. -/
def data (stack : ReadStack) (stream : TokenStream) : Listing Datum × TokenStream :=
  dataUpTo stack (stream.items.length + 1) stream

/-- The one datum of a source text. -/
def single (stack : ReadStack) : Reader Datum := do
  match ← datum? stack with
  | none => refuse .noDatum
  | some datum =>
    match ← peek with
    | none => return datum
    | some token => refuse (.inputAfterDatum token.text)

/-- Reads the whole of a source text. -/
def readSource {α : Type} (reader : Reader α) (source : String) : Except Failure α :=
  match reader (TokenStream.ofSource source) with
  | .ok result _ => .ok result
  | .error failure _ => .error failure

end ScopedLisp.Reader
