import ScopedLisp.Datum
import ScopedLisp.Session

/-!
# Data in the heap

`embed` gives a datum a place in the heap of a session. Leaves become records of their own, in
the order in which they occur, with names interned and texts entered on the way. A list becomes a
chain of pairs, allocated after all of its items and its tail, last pair first.

The work that is still to be done is kept in a list, so nesting needs no deep stack.
-/

namespace ScopedLisp

/-- A step of embedding. -/
inductive EmbedTask where
  /-- Embed a datum. -/
  | place (datum : Datum)
  /-- Build a list from the `count` handles placed last but for its tail, if it has one. -/
  | build (count : Nat) (hasTail : Bool)

namespace Datum

mutual

/-- The number of steps that embedding the datum takes. -/
def embedSteps : Datum → Nat
  | .list items => 2 + embedStepsAll items
  | .dotted items tail => 2 + (embedStepsAll items + embedSteps tail)
  | _ => 1

def embedStepsAll : List Datum → Nat
  | [] => 0
  | datum :: rest => embedSteps datum + embedStepsAll rest

end

end Datum

def EmbedTask.steps : EmbedTask → Nat
  | .place datum => datum.embedSteps
  | .build _ _ => 1

/-- The number of steps that several tasks take. -/
def EmbedTask.stepsAll : List EmbedTask → Nat
  | [] => 0
  | task :: rest => task.steps + stepsAll rest

/-- The tasks of placing some data in order. -/
def EmbedTask.placeAll (items : List Datum) : List EmbedTask := items.map .place

/-- The data that are placed first. -/
theorem EmbedTask.stepsAll_placeAll_append (items : List Datum) (rest : List EmbedTask) :
    stepsAll (placeAll items ++ rest) = Datum.embedStepsAll items + stepsAll rest := by
  induction items with
  | nil => exact (Nat.zero_add _).symm
  | cons datum others ih =>
    rw [Datum.embedStepsAll, Nat.add_assoc, ← ih]
    rfl

namespace Routine

/-- Works through the tasks; `placed` holds the handles that wait to be put into a list, latest
first. -/
def embedFrom (tasks : List EmbedTask) (placed : List Handle) : Routine (List Handle) :=
  match tasks with
  | [] => pure placed
  | .build count hasTail :: rest => do
    let (tail, items) := if hasTail then (placed.head?, placed.tail) else (none, placed)
    let h ← allocateList (items.take count).reverse tail
    embedFrom rest (h :: items.drop count)
  | .place (.list items) :: rest =>
    embedFrom (EmbedTask.placeAll items ++ .build items.length false :: rest) placed
  | .place (.dotted items tail) :: rest =>
    embedFrom (EmbedTask.placeAll items ++ .place tail :: .build items.length true :: rest) placed
  | .place (.atom name) :: rest => do
    let h ← allocate (← internAtom name)
    embedFrom rest (h :: placed)
  | .place (.integer value) :: rest => do
    let h ← allocate (.integer value)
    embedFrom rest (h :: placed)
  | .place (.boolean value) :: rest => do
    let h ← allocate (.boolean value)
    embedFrom rest (h :: placed)
  | .place (.string text) :: rest => do
    let h ← allocate (.string (← insertText text))
    embedFrom rest (h :: placed)
  | .place (.character text) :: rest => do
    let h ← allocate (.character text)
    embedFrom rest (h :: placed)
  | .place (.foreign value) :: _ => do
    throw (.notADatum (← ofExcept value.display))
termination_by EmbedTask.stepsAll tasks
decreasing_by
  all_goals
    simp only [EmbedTask.stepsAll, EmbedTask.stepsAll_placeAll_append, EmbedTask.steps,
      Datum.embedSteps]
    omega

/-- Places a datum in the heap and returns its handle. -/
def embed (datum : Datum) : Routine Handle := do
  let placed ← embedFrom [.place datum] []
  return placed.headD (← nil)

end Routine

end ScopedLisp
