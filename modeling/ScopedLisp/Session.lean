import ScopedLisp.Event
import ScopedLisp.Scopes
import ScopedLisp.Store.Print
import ScopedLisp.Vocabulary

/-!
# Sessions

A session owns everything that an evaluation touches: the store, the scopes, the reserved words,
the count of steps with its limit, and the journal of events. Routines are computations on a
session that may fail; what a failed routine has done to the session stays done.
-/

namespace ScopedLisp

structure Session where
  store : Store
  scopes : Scopes
  vocabulary : Vocabulary
  /-- The number of steps an evaluation may reach, where zero sets no limit. -/
  stepLimit : Int
  steps : Nat
  journal : Array Event
  deriving DecidableEq, Repr

/-- Computations on a session. -/
abbrev Routine := EStateM Failure Session

/-- The owner of all tables of a session. -/
def Session.owner : Nat := 0

/-- A session before its global scope is entered. -/
def Session.blank (vocabulary : Vocabulary) (stepLimit : Int) : Session where
  store := .initial owner
  scopes := .initial owner
  vocabulary := vocabulary
  stepLimit := stepLimit
  steps := 0
  journal := #[]

namespace Routine

variable {α : Type}

/-- Runs `cleanup` after `body` in any case. A failure of the cleanup takes precedence. -/
def ensuring (body : Routine α) (cleanup : Routine Unit) : Routine α := fun session =>
  match body session with
  | .ok value after =>
    match cleanup after with
    | .ok _ final => .ok value final
    | .error failure final => .error failure final
  | .error failure after =>
    match cleanup after with
    | .ok _ final => .error failure final
    | .error other final => .error other final

def report (event : Event) : Routine Unit :=
  modify fun session => { session with journal := session.journal.push event }

/-! ### The store -/

/-- What can be read off the store and the reserved words. -/
def inspect (read : Store → Vocabulary → Except Failure α) : Routine α := do
  let session ← get
  ofExcept (read session.store session.vocabulary)

/-- The record at a handle. -/
def fetch (h : Handle) : Routine Record := inspect fun store _ => store.heap.get h

/-- Appends a record to the heap. -/
def allocate (record : Record) : Routine Handle :=
  modifyGet fun session =>
    let (heap, h) := session.store.heap.insert record
    (h, { session with store := { session.store with heap } })

/-- The empty list. -/
def nil : Routine Handle := inspect fun store _ => .ok store.heap.nil

/-- Allocates the list of the items, ending in `tail` or in the empty list. -/
def allocateList (items : List Handle) (tail : Option Handle) : Routine Handle :=
  modifyGet fun session =>
    let (heap, h) := session.store.heap.chain items (tail.getD session.store.heap.nil)
    (h, { session with store := { session.store with heap } })

/-- The number of records in the heap. -/
def heapSize : Routine Nat := inspect fun store _ => .ok store.heap.size

/-- The elements of a proper list. -/
def elements (h : Handle) : Routine (List Handle) :=
  inspect fun store _ => store.heap.elements h

/-- Interns a symbol name. -/
def internSymbol (name : String) : Routine Handle :=
  modifyGet fun session =>
    let (symbols, h) := session.store.symbols.intern name
    (h, { session with store := { session.store with symbols } })

/-- Enters a text. -/
def insertText (text : String) : Routine Handle :=
  modifyGet fun session =>
    let (texts, h) := session.store.texts.insert text
    (h, { session with store := { session.store with texts } })

/-- The name of a symbol. -/
def symbolName (h : Handle) : Routine String :=
  inspect fun store _ => store.symbols.name h

/-- The record of a name: reserved words stand for what they are reserved for, other names are
interned as symbols. -/
def internAtom (name : String) : Routine Record := do
  match ← inspect fun _ words => .ok (words.classify name) with
  | some record => return record
  | none => return .symbol (← internSymbol name)

def render (h : Handle) : Routine String := inspect fun store _ => store.render h

def describe (h : Handle) : Routine String := inspect fun store _ => store.describe h

/-! ### The scopes -/

/-- Makes a frame under `parent`, or under the current scope, and returns its scope and the
parent that it was given. -/
def makeFrame (parent : Option Handle) : Routine (Handle × Option Handle) := do
  let session ← get
  let parent ← ofExcept (session.scopes.parentFor parent)
  let (scopes, scope) := session.scopes.addFrame parent
  set { session with scopes }
  return (scope, parent)

/-- Makes a scope the current one. -/
def activate (scope : Handle) : Routine Unit :=
  modify fun session => { session with scopes := session.scopes.activate scope }

def reportEntered (scope : Handle) (parent : Option Handle) : Routine Unit := do
  report (.scopeEntered scope.index (parent.map (·.index)) (← get).scopes.depth)

/-- Makes a frame under `parent`, or under the current scope, and enters it. -/
def enterScope (parent : Option Handle) : Routine Handle := do
  let (scope, parent) ← makeFrame parent
  activate scope
  reportEntered scope parent
  return scope

/-- Leaves the current scope and returns it. -/
def leave : Routine Handle := do
  let session ← get
  let (scopes, scope) ← ofExcept session.scopes.exit
  set { session with scopes }
  return scope

def reportLeft (scope : Handle) : Routine Unit := do
  report (.scopeLeft scope.index (← get).scopes.depth)

/-- Leaves the current scope. -/
def exitScope : Routine Unit := do
  reportLeft (← leave)

/-- Leaves scopes until no more than `depth` are active. -/
def unwind (depth : Int) : Routine Unit := do
  let session ← get
  let scopes ← ofExcept (session.scopes.unwind depth)
  set { session with scopes }

def currentScope : Routine Handle := do
  ofExcept (← get).scopes.current

/-- Writes a binding into the frame that `find` gives the place of. -/
def writeBinding (find : (session : Session) → Except Failure (Fin session.scopes.frames.size))
    (symbol value : Handle) : Routine Unit := fun session =>
  match find session with
  | .ok place => .ok () { session with scopes := session.scopes.write place symbol value }
  | .error failure => .error failure session

/-- Binds a symbol in the current scope. -/
def bindSymbol (symbol value : Handle) : Routine Unit :=
  writeBinding (fun session => session.scopes.currentPlace) symbol value

/-- Changes the nearest binding of a symbol. -/
def assignSymbol (symbol value : Handle) : Routine Unit :=
  writeBinding (fun session => session.scopes.bindingPlace session.store.symbols.name symbol)
    symbol value

/-- What a symbol stands for. -/
def lookupSymbol (symbol : Handle) : Routine Handle := do
  let session ← get
  ofExcept (session.scopes.lookup session.store.symbols.name symbol)

/-! ### The vocabulary -/

/-- Reserves a name for a special form in the vocabulary `words`, which is returned extended. -/
def reserveForm (words : Vocabulary) (name : String) (form : SpecialForm) :
    Routine Vocabulary := do
  let extended ← ofExcept (words.reserveForm name form)
  report (.formReserved name)
  return extended

/-- Reserves a name for an operator in the vocabulary `words`, which is returned extended. -/
def reserveOperator (words : Vocabulary) (name : String) (operator : Operator) :
    Routine Vocabulary := do
  let extended ← ofExcept (words.reserveOperator name operator)
  report (.operatorReserved name)
  return extended

/-- Replaces the vocabulary of the session by what a routine makes of it. -/
def updateVocabulary (change : Vocabulary → Routine Vocabulary) : Routine Unit := do
  let vocabulary ← change (← get).vocabulary
  modify fun session => { session with vocabulary }

/-- Reserves a name for a special form in the session. -/
def registerForm (name : String) (form : SpecialForm) : Routine Unit :=
  updateVocabulary (reserveForm · name form)

/-- Reserves a name for an operator in the session. -/
def registerOperator (name : String) (operator : Operator) : Routine Unit :=
  updateVocabulary (reserveOperator · name operator)

/-- Frees a name in the session. -/
def release (name : String) : Routine Unit :=
  updateVocabulary fun words => pure (words.release name)

/-! ### Steps -/

/-- Counts one step of evaluation. -/
def countStep : Routine Unit :=
  modify fun session => { session with steps := session.steps + 1 }

/-- Fails if more steps have been counted than the session allows. -/
def enforceLimit : Routine Unit := do
  let session ← get
  if session.stepLimit ≠ 0 ∧ session.stepLimit < session.steps then
    report (.budgetExhausted session.stepLimit)
    throw (.stepLimitExceeded session.stepLimit)

/-- Counts one step of evaluation against the limit. -/
def tick : Routine Unit := do
  countStep
  enforceLimit

end Routine

/-- A new session, whose global scope has been entered. -/
def Session.start (vocabulary : Vocabulary) (stepLimit : Int) : Session :=
  match Routine.enterScope none (blank vocabulary stepLimit) with
  | .ok _ session => session
  | .error _ session => session

end ScopedLisp
