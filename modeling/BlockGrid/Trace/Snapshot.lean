import BlockGrid.Trace.Basic

/-!
# BlockGrid.Trace.Snapshot

Snapshots of any origin: states whose fields need not be of the right kind, and values that are no
states at all.

* `LooseTrace`  — a trace of such snapshots. It begins in a state.
* `Trace.loose` — every trace is one.
-/

namespace BlockGrid

abbrev LooseCell := Json × Json

structure LooseActor where
  row : Json
  col : Json
  direction : Json
  body : List LooseCell
  collected : List LooseCell
  stepCount : Json

inductive Snapshot where
  | state (s : LooseActor)
  | foreign (v : Json)

namespace LooseCell

def ofCell (c : Cell) : LooseCell := (.int c.1, .int c.2)

def toJson (c : LooseCell) : Json := .arr [c.1, c.2]

/-- Cells are the same when their coordinates are equal as numbers. -/
def same (c d : LooseCell) : Bool := c.1.same d.1 && c.2.same d.2

def shown (c : LooseCell) : String := "(" ++ c.1.shown ++ ", " ++ c.2.shown ++ ")"

end LooseCell

namespace LooseActor

def ofActor (a : Actor) : LooseActor :=
  ⟨.int a.row, .int a.col, .str a.direction, a.body.map .ofCell, a.collected.map .ofCell,
    .int a.stepCount⟩

def position (s : LooseActor) : LooseCell := (s.row, s.col)

def facing? (s : LooseActor) : Option Direction :=
  match s.direction with
  | .str name => Direction.ofName? name
  | _ => none

/-- The form in which states travel. -/
def toJson (s : LooseActor) : Json :=
  .obj [("row", s.row), ("col", s.col), ("direction", s.direction),
    ("body", .arr (s.body.map LooseCell.toJson)),
    ("collectedStars", .arr (s.collected.map LooseCell.toJson)),
    ("stepCount", s.stepCount)]

end LooseActor

namespace Snapshot

def ofActor (a : Actor) : Snapshot := .state (.ofActor a)

end Snapshot

abbrev LooseTrace := Trace Snapshot LooseActor

def Trace.loose (t : Trace Actor) : LooseTrace :=
  ⟨t.challengeId, t.initial.map .ofActor, t.states.map .ofActor, t.success, t.outcome, t.program⟩

end BlockGrid
