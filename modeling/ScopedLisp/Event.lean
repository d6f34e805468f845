/-!
# Events

What a session reports about its work: one record for each scope entered or left, procedure
applied, budget used up, program loaded or evaluated, and word reserved. All records are of the
lowest level of interest, and each belongs to a named channel.
-/

namespace ScopedLisp

inductive Event where
  | scopeEntered (scope : Int) (parent : Option Int) (depth : Nat)
  | scopeLeft (scope : Int) (depth : Nat)
  | procedureApplied (depth : Nat)
  | budgetExhausted (limit : Int)
  | programEvaluated (forms steps : Nat)
  | programLoaded (objects : Nat)
  | formReserved (name : String)
  | operatorReserved (name : String)
  deriving DecidableEq, Repr

namespace Event

/-- The channel on which the event is reported. -/
def channel : Event → String
  | .scopeEntered _ _ _ | .scopeLeft _ _ => "hoot.types.environment"
  | .procedureApplied _ => "hoot.evaluation.apply"
  | .budgetExhausted _ => "hoot.runtime"
  | .programEvaluated _ _ => "hoot.interpreter"
  | .programLoaded _ => "hoot.loader"
  | .formReserved _ | .operatorReserved _ => "hoot.builtin.registry"

def message : Event → String
  | .scopeEntered scope parent depth =>
    s!"enter scope {scope} (parent " ++ (parent.map toString).getD "None" ++ s!", depth {depth})"
  | .scopeLeft scope depth => s!"exit scope {scope} (depth {depth})"
  | .procedureApplied depth => s!"apply procedure (scope depth {depth})"
  | .budgetExhausted limit => s!"step budget of {limit} exhausted"
  | .programEvaluated forms steps => s!"evaluated {forms} top-level form(s) in {steps} steps"
  | .programLoaded objects => s!"loaded program into {objects} objects"
  | .formReserved name => s!"registering special form {name}"
  | .operatorReserved name => s!"registering builtin procedure {name}"

/-- The record of an event: its level, channel and message. -/
def line (event : Event) : String := s!"DEBUG {event.channel}: {event.message}"

end Event

end ScopedLisp
