/-!
# BlockGrid.Grid.Direction

The four facings, clockwise from up, and cells of the grid.
-/

namespace BlockGrid

/-- Row, then column; rows grow downward and columns to the right. -/
abbrev Cell := Int × Int

def Cell.shown (c : Cell) : String := "(" ++ toString c.1 ++ ", " ++ toString c.2 ++ ")"

inductive Direction where
  | up
  | right
  | down
  | left
  deriving DecidableEq, Repr, Inhabited

namespace Direction

def name : Direction → String
  | .up => "up"
  | .right => "right"
  | .down => "down"
  | .left => "left"

def ofName? (s : String) : Option Direction :=
  if s = "up" then some .up
  else if s = "right" then some .right
  else if s = "down" then some .down
  else if s = "left" then some .left
  else none

def isKnown (s : String) : Bool := (ofName? s).isSome

/-- The names as a message lists them. -/
def listed : String := "('up', 'right', 'down', 'left')"

def index : Direction → Nat
  | .up => 0
  | .right => 1
  | .down => 2
  | .left => 3

def ofIndex : Nat → Direction
  | 0 => .up
  | 1 => .right
  | 2 => .down
  | _ => .left

def clockwise : Direction → Direction
  | .up => .right
  | .right => .down
  | .down => .left
  | .left => .up

def counterclockwise : Direction → Direction
  | .up => .left
  | .right => .up
  | .down => .right
  | .left => .down

/-- A quarter turn: right is clockwise, every other word is counterclockwise. -/
def turned (d : Direction) (way : String) : Direction :=
  if way = "right" then d.clockwise else d.counterclockwise

/-- The cell one unit step away. -/
def ahead (d : Direction) (c : Cell) : Cell :=
  match d with
  | .up => (c.1 - 1, c.2)
  | .right => (c.1, c.2 + 1)
  | .down => (c.1 + 1, c.2)
  | .left => (c.1, c.2 - 1)

end Direction

end BlockGrid
