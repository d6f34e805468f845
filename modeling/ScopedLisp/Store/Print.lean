import ScopedLisp.Literal
import ScopedLisp.Store

/-!
# The text of an object

Objects are printed as the data they came from. A chain of pairs is printed as one list, with a
dot before its end unless that is the empty list, and a procedure shows its parameters only.

`Store.render` keeps the pieces that are still to be printed in a list of its own, so deeply
nested objects need no deep stack. Each piece knows how deep below it the heap may still be
descended. A record refers to smaller handles only, so the size of the heap is room enough;
where links lead round in a circle the room runs out instead.
-/

namespace ScopedLisp

/-- What a record is printed as. -/
inductive Layout where
  /-- A text that needs no other object. -/
  | plain (text : String)
  /-- A list of one or more items, and the tail unless that is the empty list. -/
  | list (first : Handle) (rest : List Handle) (tail : Option Handle)
  | procedure (params : Handle)
  deriving DecidableEq, Repr

/-- Something that is still to be printed. -/
inductive Piece where
  | plain (text : String)
  /-- An object with the depth to which it may be descended. -/
  | object (room : Nat) (h : Handle)
  deriving DecidableEq, Repr

/-- The pieces of a layout, whose objects may be descended to depth `room`. -/
def Layout.pieces (room : Nat) : Layout → List Piece
  | .plain text => [.plain text]
  | .list first rest tail =>
    .plain "(" :: .object room first
      :: rest.flatMap (fun item => [.plain " ", .object room item])
      ++ (match tail with
          | some last => [.plain " . ", .object room last]
          | none => [])
      ++ [.plain ")"]
  | .procedure params => [.plain "#<procedure ", .object room params, .plain ">"]

/-- A bound for the work that printing a piece takes when no layout has `base` pieces. -/
def Piece.weight (base : Nat) : Piece → Nat
  | .plain _ => 1
  | .object room _ => base.pow (room + 1)

/-- A bound for the work of several pieces. -/
def Piece.weightAll (base : Nat) : List Piece → Nat
  | [] => 0
  | piece :: rest => piece.weight base + weightAll base rest

theorem Piece.weightAll_append (base : Nat) (pieces more : List Piece) :
    weightAll base (pieces ++ more) = weightAll base pieces + weightAll base more := by
  induction pieces with
  | nil => exact (Nat.zero_add _).symm
  | cons piece rest ih =>
    rw [List.cons_append, weightAll, weightAll, ih]
    omega

theorem Piece.weightAll_le {base bound : Nat} {pieces : List Piece}
    (bounded : ∀ piece ∈ pieces, piece.weight base ≤ bound) :
    weightAll base pieces ≤ pieces.length * bound := by
  induction pieces with
  | nil => exact Nat.zero_le _
  | cons piece rest ih =>
    have head := bounded piece List.mem_cons_self
    have tail := ih fun other member => bounded other (List.mem_cons_of_mem _ member)
    rw [weightAll, List.length_cons, Nat.succ_mul]
    omega

/-- A layout weighs less than an object that may be descended one step deeper. -/
theorem Layout.weightAll_pieces_lt {base room : Nat} {layout : Layout}
    (short : (layout.pieces room).length < base) :
    Piece.weightAll base (layout.pieces room) < base.pow (room + 2) := by
  have positive : 0 < base.pow (room + 1) := Nat.pow_pos (by omega)
  have light : ∀ piece ∈ layout.pieces room, piece.weight base ≤ base.pow (room + 1) := by
    intro piece member
    cases piece with
    | plain text => exact positive
    | object deep h =>
      have same : deep = room := by
        cases layout with
        | plain text => simp [pieces] at member
        | procedure params => simp [pieces] at member; exact member.1
        | list first rest tail => cases tail <;> simp [pieces] at member <;> grind
      rw [same]
      exact Nat.le_refl _
  calc Piece.weightAll base (layout.pieces room)
      ≤ (layout.pieces room).length * base.pow (room + 1) := Piece.weightAll_le light
    _ < base * base.pow (room + 1) := Nat.mul_lt_mul_of_pos_right short positive
    _ = base.pow (room + 2) := Nat.mul_comm _ _

namespace Heap

theorem length_spine_le {heap : Heap} {steps : Nat} {h last : Handle} {cars : List Handle}
    {record : Record} (found : heap.spine steps h = .ok (cars, last, record)) :
    cars.length ≤ steps := by
  induction steps generalizing h cars with
  | zero => cases found
  | succ steps ih =>
    simp only [spine, bind, Except.bind, pure, Except.pure] at found
    split at found
    · cases found
    · split at found
      · split at found
        · cases found
        · next _ _ _ _ result inner =>
          obtain ⟨more, end'⟩ := result
          cases found
          have := ih inner
          simp only [List.length_cons]
          omega
      · cases found
        simp

end Heap

namespace Store

/-- What the object at `h` is printed as. -/
def layout (store : Store) (h : Handle) : Except Failure Layout := do
  match ← store.heap.get h with
  | .nil => return .plain "()"
  | .pair car cdr =>
    let (cars, last, record) ← store.heap.spine (store.heap.size + 1) cdr
    return .list car cars (if record = .nil then none else some last)
  | .procedure params _ _ => return .procedure params
  | .keyword name => return .plain name
  | .operator name => return .plain name
  | .symbol name => return .plain (← store.symbols.name name)
  | .integer value => return .plain (← Record.digits value)
  | .boolean value => return .plain (if value then "#t" else "#f")
  | .string text => return .plain (Literal.ofText (← store.texts.get text))
  | .character text => return .plain ("#\\" ++ Literal.characterName text)
  | .foreign value => return .plain (← Record.digits value)

/-- More than the pieces of any layout. -/
def pieceBound (store : Store) : Nat := 2 * store.heap.size + 8

theorem length_pieces_lt {store : Store} {h : Handle} {layout : Layout} (room : Nat)
    (found : store.layout h = .ok layout) : (layout.pieces room).length < store.pieceBound := by
  have small : ∀ text, ((Layout.plain text).pieces room).length < store.pieceBound := by
    intro text
    simp only [Layout.pieces, List.length_singleton, pieceBound]
    omega
  simp only [Store.layout, bind, Except.bind, pure, Except.pure] at found
  split at found
  · cases found
  · split at found
    · cases found; exact small _
    · split at found
      · cases found
      · next _ _ _ _ result spine =>
        obtain ⟨cars, last, record⟩ := result
        have bound := Heap.length_spine_le spine
        cases found
        have inner : (cars.flatMap fun item => [Piece.plain " ", .object room item]).length
            = 2 * cars.length := by
          rw [List.length_flatMap]
          simp only [List.length_cons, List.length_nil, List.map_const', List.sum_replicate_nat]
          omega
        split <;>
          simp only [Layout.pieces, List.length_append, List.length_cons, List.length_nil, inner,
            pieceBound] <;>
          omega
    · cases found
      simp only [Layout.pieces, List.length_cons, List.length_nil, pieceBound]
      omega
    all_goals first
      | (cases found; exact small _)
      | (split at found
         · cases found
         · cases found; exact small _)

/-- Prints the pieces after what has been written. -/
def writeFrom (store : Store) (pending : List Piece) (written : String) :
    Except Failure String :=
  match pending with
  | [] => .ok written
  | .plain text :: rest => writeFrom store rest (written ++ text)
  | .object 0 _ :: _ => .error .endlessWalk
  | .object (room + 1) h :: rest =>
    match _ : store.layout h with
    | .error failure => .error failure
    | .ok layout => writeFrom store (layout.pieces room ++ rest) written
termination_by Piece.weightAll store.pieceBound pending
decreasing_by
  · simp only [Piece.weightAll, Piece.weight]
    omega
  · rw [Piece.weightAll_append, Piece.weightAll]
    exact Nat.add_lt_add_right (Layout.weightAll_pieces_lt (length_pieces_lt room ‹_›)) _

/-- The text of the object at `h`. -/
def render (store : Store) (h : Handle) : Except Failure String :=
  store.writeFrom [.object (store.heap.size + 1) h] ""

/-- The text of the object at `h` after the name of its type, as messages show it. -/
def describe (store : Store) (h : Handle) : Except Failure String := do
  let record ← store.heap.get h
  return record.typeName ++ " " ++ (← store.render h)

end Store

end ScopedLisp
