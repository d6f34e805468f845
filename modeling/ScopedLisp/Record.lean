import ScopedLisp.Failure
import ScopedLisp.Text.Numeral

/-!
# Records

What the heap holds. A record refers to other entries only through handles, so it is never
changed and may be shared freely.
-/

namespace ScopedLisp

inductive Record where
  /-- The empty list and the end of a list. -/
  | nil
  | pair (car cdr : Handle)
  /-- A procedure of the program: parameters, body and the scope it was made in. -/
  | procedure (params body scope : Handle)
  /-- A reserved word that names a special form. -/
  | keyword (name : String)
  /-- A reserved word that names a built-in operator. -/
  | operator (name : String)
  | symbol (name : Handle)
  | integer (value : Int)
  | boolean (value : Bool)
  | string (text : Handle)
  | character (text : String)
  /-- A number of the embedding program that was stored as it is. -/
  | foreign (value : Int)
  deriving DecidableEq, Repr

namespace Record

/-- The record's type as messages name it. -/
def typeName : Record → String
  | .nil => "nil"
  | .pair _ _ => "pair"
  | .procedure _ _ _ => "procedure"
  | .keyword _ => "special form"
  | .operator _ => "builtin procedure"
  | .symbol _ => "symbol"
  | .integer _ => "integer"
  | .boolean _ => "boolean"
  | .string _ => "string"
  | .character _ => "character"
  | .foreign _ => "int"

/-- The decimal text of an integer. -/
def digits (value : Int) : Except Failure String :=
  match Text.Numeral.print? value with
  | some text => .ok text
  | none => .error .tooManyDigits

/-- The record with its fields, handles by their index. -/
def display : Record → Except Failure String
  | .nil => .ok "Nil()"
  | .pair car cdr => .ok s!"Pair(car={car.display}, cdr={cdr.display})"
  | .procedure params body scope =>
    .ok s!"Procedure(params={params.display}, body={body.display}, scope={scope.display})"
  | .keyword name => .ok ("Keyword(tag=" ++ Text.quoted name ++ ")")
  | .operator name => .ok ("BuiltinProcedure(tag=" ++ Text.quoted name ++ ")")
  | .symbol name => .ok s!"Symbol(handle={name.display})"
  | .integer value => do return "Integer(value=" ++ (← digits value) ++ ")"
  | .boolean value => .ok ("Boolean(value=" ++ (if value then "True" else "False") ++ ")")
  | .string text => .ok s!"StringRef(handle={text.display})"
  | .character text => .ok ("Character(value=" ++ Text.quoted text ++ ")")
  | .foreign value => digits value

end Record

end ScopedLisp
