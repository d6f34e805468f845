import ScopedLisp.Assoc
import ScopedLisp.Listing

/-!
# Scopes

Frames of bindings with two structures on them. Each frame has a lexical parent, fixed when the
frame is made, and names are looked up along these parents. Apart from that there is a stack of
active scopes, whose innermost one is current: a procedure call makes a frame whose parent is the
scope that the procedure was made in, whatever scopes are active at the call. Frames are never
removed, so a captured scope stays good after it has been left.
-/

namespace ScopedLisp

structure Frame where
  parent : Option Handle
  /-- Symbols and the objects that they stand for. -/
  bindings : Assoc Handle Handle
  deriving DecidableEq, Repr

structure Scopes where
  owner : Nat
  frames : Array Frame
  /-- The scopes that have been entered and not yet left, innermost first. -/
  active : List Handle
  deriving DecidableEq, Repr

namespace Scopes

/-- No frames, nothing entered. -/
def initial (owner : Nat) : Scopes := ⟨owner, #[], []⟩

def handleAt (scopes : Scopes) (i : Nat) : Handle := ⟨.scopes, i, scopes.owner⟩

/-- The position of a scope among the frames. -/
def position (scopes : Scopes) (h : Handle) : Except Failure (Fin scopes.frames.size) :=
  match h.position? .scopes scopes.owner scopes.frames.size with
  | some i => .ok i
  | none => .error (.unknownHandle h .scopes)

def frame (scopes : Scopes) (h : Handle) : Except Failure Frame :=
  (scopes.position h).map (scopes.frames[·])

/-- The number of active scopes. -/
def depth (scopes : Scopes) : Nat := scopes.active.length

/-- The innermost active scope. -/
def current (scopes : Scopes) : Except Failure Handle :=
  match scopes.active with
  | scope :: _ => .ok scope
  | [] => .error (.scopeUnderflow .nothingEntered)

/-- The parent of a new frame: the scope that is asked for, or else the current one if any. -/
def parentFor (scopes : Scopes) : Option Handle → Except Failure (Option Handle)
  | some scope => (scopes.position scope).map fun _ => some scope
  | none => .ok scopes.active.head?

/-- Makes an empty frame with the given parent. -/
def addFrame (scopes : Scopes) (parent : Option Handle) : Scopes × Handle :=
  ({ scopes with frames := scopes.frames.push ⟨parent, []⟩ }, scopes.handleAt scopes.frames.size)

/-- Makes a scope the current one. -/
def activate (scopes : Scopes) (scope : Handle) : Scopes :=
  { scopes with active := scope :: scopes.active }

/-- Makes an empty frame with the given parent and enters it. -/
def push (scopes : Scopes) (parent : Option Handle) : Scopes × Handle :=
  let (extended, scope) := scopes.addFrame parent
  (extended.activate scope, scope)

/-- Makes an empty frame under the given scope, or under the current one, and enters it. -/
def enter (scopes : Scopes) (parent : Option Handle) : Except Failure (Scopes × Handle) :=
  (scopes.parentFor parent).map scopes.push

/-- Leaves the current scope, which must not be the outermost one, and tells which it was. -/
def exit (scopes : Scopes) : Except Failure (Scopes × Handle) :=
  match scopes.active with
  | scope :: next :: outer => .ok ({ scopes with active := next :: outer }, scope)
  | _ => .error (.scopeUnderflow .exitGlobal)

/-- Leaves scopes until no more than `depth` are active. -/
def unwind (scopes : Scopes) (depth : Int) : Except Failure Scopes :=
  if depth < 1 then .error (.scopeUnderflow .unwindGlobal)
  else .ok { scopes with active := scopes.active.drop (scopes.active.length - depth.toNat) }

/-- The frames along the parents of `scope`, no more than `steps` of them. -/
def chainWithin (scopes : Scopes) : Nat → Handle → Listing (Handle × Frame)
  | 0, _ => .failed .endlessWalk
  | steps + 1, scope =>
    match scopes.frame scope with
    | .error failure => .failed failure
    | .ok frame =>
      Listing.cons (scope, frame) <|
        match frame.parent with
        | some parent => chainWithin scopes steps parent
        | none => .empty

/-- The frames along the lexical chain of `scope`, innermost first. A parent is older than its
child, so the chain is no longer than there are frames. -/
def chainOf (scopes : Scopes) (scope : Handle) : Listing (Handle × Frame) :=
  scopes.chainWithin (scopes.frames.size + 1) scope

/-- The lexical chain of the current scope. -/
def chain (scopes : Scopes) : Listing (Handle × Frame) :=
  match scopes.current with
  | .ok scope => scopes.chainOf scope
  | .error failure => .failed failure

/-- The place of the current scope. -/
def currentPlace (scopes : Scopes) : Except Failure (Fin scopes.frames.size) := do
  scopes.position (← scopes.current)

/-- Writes a binding into the frame at a place. -/
def write (scopes : Scopes) (place : Fin scopes.frames.size) (symbol value : Handle) : Scopes :=
  { scopes with
    frames := scopes.frames.modify place fun frame =>
      { frame with bindings := frame.bindings.put symbol value } }

/-- Binds the symbol in the current scope. -/
def bind (scopes : Scopes) (symbol value : Handle) : Except Failure Scopes :=
  scopes.currentPlace.map fun place => scopes.write place symbol value

/-- How symbols are named in messages. -/
abbrev Naming := Handle → Except Failure String

/-- The failure of a search for a symbol. -/
def unbound {α : Type} (naming : Naming) (symbol : Handle) : Except Failure α := do
  throw (.unboundVariable (← naming symbol))

/-- How a search ends that has come to the end of the current chain: as the walk along the chain
ended, or else for want of a binding. -/
def nowhereBound {α : Type} (scopes : Scopes) (naming : Naming) (symbol : Handle) :
    Except Failure α :=
  match scopes.chain.failure with
  | some failure => .error failure
  | none => unbound naming symbol

/-- The place of the nearest scope that binds the symbol. -/
def bindingPlace (scopes : Scopes) (naming : Naming) (symbol : Handle) :
    Except Failure (Fin scopes.frames.size) :=
  match scopes.chain.items.find? fun entry => entry.2.bindings.has symbol with
  | some (scope, _) => scopes.position scope
  | none => scopes.nowhereBound naming symbol

/-- Changes the nearest binding of the symbol. -/
def assign (scopes : Scopes) (naming : Naming) (symbol value : Handle) :
    Except Failure Scopes :=
  (scopes.bindingPlace naming symbol).map fun place => scopes.write place symbol value

/-- What the nearest binding of the symbol stands for. -/
def lookup (scopes : Scopes) (naming : Naming) (symbol : Handle) : Except Failure Handle :=
  match scopes.chain.items.findSome? fun entry => entry.2.bindings.get? symbol with
  | some value => .ok value
  | none => scopes.nowhereBound naming symbol

/-- The symbol is bound in some scope on the current chain. -/
def isBound (scopes : Scopes) (symbol : Handle) : Except Failure Bool :=
  if scopes.chain.items.any fun entry => entry.2.bindings.has symbol then .ok true
  else
    match scopes.chain.failure with
    | some failure => .error failure
    | none => .ok false

/-- The bindings of a frame between braces. -/
def displayFrame (naming : Naming) (frame : Frame) : Except Failure String := do
  let bindings ← frame.bindings.mapM fun (symbol, value) => do
    return (← naming symbol) ++ ": " ++ value.display
  return "\x7b" ++ ", ".intercalate bindings ++ "\x7d"

/-- The current frame and an arrow if it has a parent. -/
def displayCurrent (scopes : Scopes) (naming : Naming) : Except Failure String :=
  match scopes.active with
  | [] => .ok "\x7b\x7d"
  | scope :: _ => do
    let frame ← scopes.frame scope
    return (← displayFrame naming frame) ++ (if frame.parent.isSome then " -> ..." else "")

/-- All frames of the current chain, innermost first. -/
def displayChain (scopes : Scopes) (naming : Naming) : Except Failure String := do
  let frames ← if scopes.active.isEmpty then pure [] else scopes.chain.all
  let shown ← frames.mapM fun (_, frame) => displayFrame naming frame
  return "<Environment chain: " ++ " -> ".intercalate shown ++ ">"

end Scopes

end ScopedLisp
