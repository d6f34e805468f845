import ScopedLisp.Failure
import ScopedLisp.Text.Numeral

/-!
# Data

What a source text denotes before it is given meaning: atoms, literals and lists, where a list
may end in a tail after a dot. A list whose tail is again a list denotes the same chain of pairs
as the longer list; `Datum.merged` is the longest such spelling.
-/

namespace ScopedLisp

/-- Why a value of the embedding program has no shown text. -/
inductive Unshown where
  /-- An integer in it has too many digits. -/
  | tooManyDigits
  /-- It is shown in a way of its own, which ended in a complaint. -/
  | complaint (text : String)

/-- The failure that stands for it. -/
def Unshown.failure : Unshown → Failure
  | .tooManyDigits => .tooManyDigits
  | .complaint text => .notShown text

/-- A value of the embedding program. -/
inductive HostValue where
  | none
  | boolean (value : Bool)
  | integer (value : Int)
  | text (value : String)
  | list (items : List HostValue)
  /-- A value of any other kind, known by its shown text or by why it has none. -/
  | other (shown : Except Unshown String)

namespace HostValue

mutual

/-- The value as the embedding program shows it. -/
def display : HostValue → Except Failure String
  | .none => .ok "None"
  | .boolean true => .ok "True"
  | .boolean false => .ok "False"
  | .integer value =>
    match Text.Numeral.print? value with
    | some digits => .ok digits
    | Option.none => .error .tooManyDigits
  | .text value => .ok (Text.quoted value)
  | .list items => do return "[" ++ ", ".intercalate (← displayAll items) ++ "]"
  | .other shown => shown.mapError Unshown.failure

def displayAll : List HostValue → Except Failure (List String)
  | [] => .ok []
  | value :: rest => do return (← display value) :: (← displayAll rest)

end

end HostValue

inductive Datum where
  | atom (name : String)
  | integer (value : Int)
  | boolean (value : Bool)
  | string (text : String)
  /-- A text of one character when it was read from a source. -/
  | character (text : String)
  | list (items : List Datum)
  /-- Items and what follows the dot. Without items it denotes the tail alone. An embedding program
  that gives `None` for the tail gives no tail, so what it means is `list`. -/
  | dotted (items : List Datum) (tail : Datum)
  /-- A value of the embedding program that slipped in where a datum was expected. -/
  | foreign (value : HostValue)

namespace Datum

/-- The datum abbreviated by a quote mark. -/
def quoted (datum : Datum) : Datum := .list [.atom "quote", datum]

/-- The datum within `depth` lists of one item. -/
def nested (datum : Datum) : Nat → Datum
  | 0 => datum
  | depth + 1 => .list [nested datum depth]

/-- Items in front of a tail, spelled as one list where the tail is a list. -/
def following (items : List Datum) : Datum → Datum
  | .list more => .list (items ++ more)
  | .dotted more tail => .dotted (items ++ more) tail
  | tail => if items.isEmpty then tail else .dotted items tail

mutual

/-- The same datum with every list-valued tail merged into its list. -/
def merged : Datum → Datum
  | .list items => .list (mergedAll items)
  | .dotted items tail => following (mergedAll items) (merged tail)
  | leaf => leaf

def mergedAll : List Datum → List Datum
  | [] => []
  | datum :: rest => merged datum :: mergedAll rest

end

end Datum

end ScopedLisp
