import BlockGrid.Grid.Motion

/-!
# BlockGrid.Run.Outcome

Why a run ended, or was never begun.
-/

namespace BlockGrid

inductive Outcome where
  | success
  | incomplete
  | illegalMove
  | emptyProgram
  | malformedProgram
  | invalidState
  | busy
  | cancelled
  deriving DecidableEq, Repr

namespace Outcome

def name : Outcome → String
  | .success => "success"
  | .incomplete => "incomplete"
  | .illegalMove => "illegal_move"
  | .emptyProgram => "empty_program"
  | .malformedProgram => "malformed_program"
  | .invalidState => "invalid_state"
  | .busy => "busy"
  | .cancelled => "cancelled"

def all : List Outcome :=
  [.success, .incomplete, .illegalMove, .emptyProgram, .malformedProgram, .invalidState, .busy,
    .cancelled]

def isKnown (s : String) : Bool := all.any fun o => o.name == s

end Outcome

/-- The outcome of a program that ran to its end in state `a`. -/
def World.outcome (w : World) (a : Actor) : Outcome :=
  if w.evaluate a then .success else .incomplete

end BlockGrid
