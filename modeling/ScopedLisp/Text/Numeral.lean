import ScopedLisp.Text.Blank
import ScopedLisp.Text.Digit

/-!
# Numerals

Integers as decimal text. A literal of the language is an optional sign and digits of any
script. A setting is written more freely: blanks may surround it and single underscores may stand
between its digits. No integer of more than `digitLimit` digits is converted in either direction,
where the sign does not count and leading zeros do.
-/

namespace ScopedLisp.Text

/-- The longest run of digits that is converted between text and integer. -/
def digitLimit : Nat := 4300

namespace Numeral

/-- Why a text is not read as an integer. -/
inductive Defect where
  | malformed | tooLong
  deriving DecidableEq, Repr

/-- The number that a list of digit values denotes, most significant first. -/
def value (digits : List Nat) : Nat := digits.foldl (fun n digit => 10 * n + digit) 0

/-- Whether a minus sign leads, and the text after an optional sign. -/
def splitSign : List Char → Bool × List Char
  | '+' :: rest => (false, rest)
  | '-' :: rest => (true, rest)
  | rest => (false, rest)

def signed (negative : Bool) (n : Nat) : Int := if negative then -(n : Int) else n

/-- The integer denoted by digits under a sign, unless there are too many of them. -/
def ofDigits (negative : Bool) (digits : List Nat) : Except Defect Int :=
  if digits.length > digitLimit then .error .tooLong else .ok (signed negative (value digits))

/-- An optional sign followed by one or more digits and nothing else. -/
def isLiteral (cs : List Char) : Bool :=
  let digits := (splitSign cs).2
  !digits.isEmpty && digits.all isDecimalDigit

/-- The integer that a literal denotes. -/
def ofLiteral (cs : List Char) : Except Defect Int :=
  let (negative, digits) := splitSign cs
  ofDigits negative (digits.filterMap digitValue?)

/-- Digits with single underscores between them only; `afterDigit` tells whether a digit
precedes. -/
def isGrouped (afterDigit : Bool) : List Char → Bool
  | [] => afterDigit
  | '_' :: rest => afterDigit && isGrouped false rest
  | _ :: rest => isGrouped true rest

/-- The integer written in a setting. A run of too many digits is noticed before what follows
it is looked at. -/
def read (text : String) : Except Defect Int :=
  let (negative, body) := splitSign (trimBy (fun c => isBlank c && !isSeparator c) text.toList)
  let inNumber := fun c => isDecimalDigit c || c == '_'
  let run := body.takeWhile inNumber
  if !isGrouped false run then .error .malformed
  else do
    let n ← ofDigits negative (run.filterMap digitValue?)
    if (body.dropWhile inNumber).isEmpty then return n else throw .malformed

/-- The decimal text of an integer, unless it has too many digits. -/
def print? (n : Int) : Option String :=
  let digits := n.natAbs.repr
  if digits.length > digitLimit then none
  else some (if n < 0 then "-" ++ digits else digits)

end Numeral

end ScopedLisp.Text
