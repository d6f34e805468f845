import ScopedLisp.Assoc
import ScopedLisp.Record

/-!
# Reserved words

Some names are not variables: they stand for a special form, which receives its operands
unevaluated, or for a built-in operator, which receives their values. A vocabulary says which
names are reserved and for what. A name serves one purpose only: it is refused as a special form
while it names an operator, and the other way round.

A name can be reserved for any of the forms and operators of the language, under several names or
under none. A handler that a host writes itself is code of the host and has no place here.
-/

namespace ScopedLisp

/-- The special forms of the language. -/
inductive SpecialForm where
  | quotation | conditional | assignment | definition | abstraction | sequence
  deriving DecidableEq, Repr

/-- The word that a special form goes by in the standard vocabulary and in its messages. -/
def SpecialForm.word : SpecialForm → String
  | .quotation => "quote"
  | .conditional => "if"
  | .assignment => "set!"
  | .definition => "define"
  | .abstraction => "lambda"
  | .sequence => "begin"

def SpecialForm.every : List SpecialForm :=
  [.quotation, .conditional, .assignment, .definition, .abstraction, .sequence]

/-- The built-in operators of the language. -/
inductive Operator where
  | sum | difference
  deriving DecidableEq, Repr

def Operator.word : Operator → String
  | .sum => "+"
  | .difference => "-"

def Operator.every : List Operator := [.sum, .difference]

structure Vocabulary where
  forms : Assoc String SpecialForm
  operators : Assoc String Operator
  deriving DecidableEq, Repr

namespace Vocabulary

/-- Every special form and operator under its own word. -/
def standard : Vocabulary where
  forms := SpecialForm.every.map fun form => (form.word, form)
  operators := Operator.every.map fun operator => (operator.word, operator)

/-- What a name is reserved for, as a record. -/
def classify (words : Vocabulary) (name : String) : Option Record :=
  if words.forms.has name then some (.keyword name)
  else if words.operators.has name then some (.operator name)
  else none

def isReserved (words : Vocabulary) (name : String) : Bool :=
  words.forms.has name || words.operators.has name

/-- The special form that a word stands for. -/
def form (words : Vocabulary) (name : String) : Except Failure SpecialForm :=
  match words.forms.get? name with
  | some form => .ok form
  | none => .error (.unsupportedForm name (.unregistered .specialForm))

/-- The operator that a word stands for. -/
def operator (words : Vocabulary) (name : String) : Except Failure Operator :=
  match words.operators.get? name with
  | some operator => .ok operator
  | none => .error (.unsupportedForm name (.unregistered .operator))

/-- Reserves a name for a special form. -/
def reserveForm (words : Vocabulary) (name : String) (form : SpecialForm) :
    Except Failure Vocabulary :=
  if words.operators.has name then .error (.nameTaken name .operator)
  else .ok { words with forms := words.forms.put name form }

/-- Reserves a name for an operator. -/
def reserveOperator (words : Vocabulary) (name : String) (operator : Operator) :
    Except Failure Vocabulary :=
  if words.forms.has name then .error (.nameTaken name .specialForm)
  else .ok { words with operators := words.operators.put name operator }

/-- Frees a name. -/
def release (words : Vocabulary) (name : String) : Vocabulary :=
  ⟨words.forms.remove name, words.operators.remove name⟩

end Vocabulary

end ScopedLisp
