/-!
# The host's call stack

Reading and evaluating recurse, and the machine that runs them has a finite stack. A computation
learns about it in two ways: `room` nested calls find it used up whatever happens, and at any
moment before that it may be found used up early. What happens earlier is left open, so that
statements can range over every pattern of failures. How many nested calls a machine has room for,
and which of its calls take how much of it, is not described.
-/

namespace ScopedLisp

/-- A stack with room for `room` nested calls that may also fail at a moment of a computation,
given the room that is left and the state. -/
structure CallStack (Moment State : Type) where
  room : Nat
  failsAt : Moment → Nat → State → Bool

namespace CallStack

variable {Moment State : Type}

/-- The stack that fails only when its room is used up. -/
def withRoom (room : Nat) : CallStack Moment State := ⟨room, fun _ _ _ => false⟩

/-- The stack is found used up at some moment although there is room left. -/
def FailsEarly (stack : CallStack Moment State) : Prop :=
  ∃ moment room state, stack.failsAt moment room state = true

/-- The stack `ample` has room for `more` further calls and is never found used up at a moment at
which `stack` is not. -/
structure FitsIn (stack ample : CallStack Moment State) (more : Nat) : Prop where
  room : ample.room = stack.room + more
  calmer : ∀ moment room state,
    ample.failsAt moment (room + more) state = true → stack.failsAt moment room state = true

theorem FitsIn.refl (stack : CallStack Moment State) : stack.FitsIn stack 0 :=
  ⟨rfl, fun _ _ _ early => early⟩

end CallStack

end ScopedLisp
