import BlockGrid.Command.Basic
import BlockGrid.Grid.World

/-!
# BlockGrid.Grid.Motion

What one effect does to an actor.

* `Motion`   — a unit step or a quarter turn.
* `World.step` — the state after a motion. A step onto a closed cell is not legal and changes
  nothing. In a growing world the trail follows the head.
* `evaluate` — whether the objective is met.
-/

namespace BlockGrid

inductive Motion where
  | step
  | turn (way : String)
  deriving DecidableEq, Repr

inductive MotionError where
  | unknownFacing
  | unsupported (shownKind : String)
  deriving DecidableEq, Repr

def MotionError.message : MotionError → String
  | .unknownFacing => "tuple.index(x): x not in tuple"
  | .unsupported kind => "cannot apply effect of kind " ++ kind

namespace Motion

/-- The name of a kind may be any value. -/
def ofName (kind : Json) (way : String) : Except MotionError Motion :=
  if kind.same (.str Kind.turn.name) then .ok (.turn way)
  else if kind.same (.str Kind.step.name) then .ok .step
  else .error (.unsupported kind.shown)

end Motion

/-- A facing after a quarter turn, by name. -/
def turnName (facing way : String) : Except MotionError String :=
  match Direction.ofName? facing with
  | some d => .ok (d.turned way).name
  | none => .error .unknownFacing

/-- The state after an effect; when it was not legal, the state before. -/
structure StepResult where
  actor : Actor
  legal : Bool
  collected : Option Cell
  deriving DecidableEq, Repr

namespace World

/-- Each segment takes the cell that the one ahead of it leaves. -/
def follow (head : Cell) (body : List Cell) : List Cell :=
  if body.isEmpty then [] else head :: body.dropLast

/-- The cell that the last segment, or the head of an empty trail, leaves. -/
def vacated (head : Cell) (body : List Cell) : Cell := body.getLast?.getD head

/-- The head goes to `c`; in a growing world it may gather what lies there. -/
def enter (w : World) (a : Actor) (c : Cell) : StepResult :=
  if w.grows then
    let trail := follow a.position a.body
    if w.collectibles.contains c && !a.collected.contains c then
      ⟨{ a with
          row := c.1
          col := c.2
          body := trail ++ [vacated a.position a.body]
          collected := a.collected ++ [c]
          stepCount := a.stepCount + 1 }, true, some c⟩
    else
      ⟨{ a with row := c.1, col := c.2, body := trail, stepCount := a.stepCount + 1 }, true, none⟩
  else ⟨{ a with row := c.1, col := c.2, stepCount := a.stepCount + 1 }, true, none⟩

def advance (w : World) (a : Actor) (d : Direction) : StepResult :=
  let c := d.ahead a.position
  if w.isOpen c then w.enter a c else ⟨a, false, none⟩

def step (w : World) (a : Actor) : Motion → Except MotionError StepResult
  | .turn way =>
    (turnName a.direction way).map fun name => ⟨{ a with direction := name }, true, none⟩
  | .step =>
    match Direction.ofName? a.direction with
    | some d => .ok (w.advance a d)
    | none => .error .unknownFacing

/-- The head on the goal, or every collectible gathered; a world without objective is always won. -/
def evaluate (w : World) (a : Actor) : Bool :=
  match w.goal with
  | some g => decide (a.position = g)
  | none => w.collectibles.all a.collected.contains

end World

end BlockGrid
