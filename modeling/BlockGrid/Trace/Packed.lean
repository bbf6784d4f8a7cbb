import BlockGrid.Grid.Motion
import BlockGrid.Trace.Snapshot

/-!
# BlockGrid.Trace.Packed

States packed into flat columns of thirty-two-bit integers. Trails and collected cells of all states
are strung together; the number of cells of each state says where to cut.

* `Packed`             — the eight columns.
* `Packed.ofSnapshots` — packing. Column after column is filled, and the first value that does not
  fit ends it.
* `Packed.states`      — unpacking, which takes columns of any origin.
-/

namespace BlockGrid

/-- Directions are numbered clockwise from up. -/
structure Packed where
  row : List Int
  col : List Int
  direction : List Int
  stepCount : List Int
  bodyLength : List Int
  collectedLength : List Int
  bodyCells : List Cell
  collectedCells : List Cell
  deriving DecidableEq, Repr

inductive PackError where
  | foreign (kind : String)
  | unknownDirection
  | outOfRange (n : Int)
  | tooLarge
  | field (e : ReadError)
  deriving DecidableEq, Repr

def PackError.message : PackError → String
  | .foreign kind => "'" ++ kind ++ "' object has no attribute 'row'"
  | .unknownDirection => MotionError.unknownFacing.message
  | .outOfRange n => "Python integer " ++ toString n ++ " out of bounds for int32"
  | .tooLarge => "Python int too large to convert to C long"
  | .field e => e.message

namespace Packed

def fitsBits (bits : Nat) (n : Int) : Bool := -Int.pow 2 (bits - 1) ≤ n ∧ n < Int.pow 2 (bits - 1)

def fit (n : Int) : Except PackError Int :=
  if fitsBits 32 n then .ok n
  else if fitsBits 64 n then .error (.outOfRange n)
  else .error .tooLarge

/-- Values that are no integers are read as such first; what they exceed the range by is cut off. -/
def wrap (n : Int) : Except PackError Int :=
  if fitsBits 64 n then .ok (n.bmod (Nat.pow 2 32)) else .error .tooLarge

def number : Json → Except PackError Int
  | .int n => fit n
  | .bool b => .ok (if b then 1 else 0)
  | v =>
    match v.toInteger with
    | .ok n => wrap n
    | .error e => .error (.field e)

def directionIndex (s : LooseActor) : Except PackError Int :=
  match s.facing? with
  | some d => .ok d.index
  | none => .error .unknownDirection

def cell (c : LooseCell) : Except PackError Cell := do
  let r ← number c.1
  let k ← number c.2
  pure (r, k)

def loose : Snapshot → Except PackError LooseActor
  | .state s => .ok s
  | .foreign v => .error (.foreign v.kindName)

def column {α : Type} (f : LooseActor → Except PackError α) (states : List Snapshot) :
    Except PackError (List α) := states.mapM fun s => do f (← loose s)

def ofSnapshots (states : List Snapshot) : Except PackError Packed := do
  let row ← column (fun s => number s.row) states
  let col ← column (fun s => number s.col) states
  let direction ← column directionIndex states
  let stepCount ← column (fun s => number s.stepCount) states
  let bodies ← column (fun s => .ok s.body) states
  let collections ← column (fun s => .ok s.collected) states
  let bodyCells ← bodies.flatten.mapM cell
  let collectedCells ← collections.flatten.mapM cell
  pure ⟨row, col, direction, stepCount, bodies.map fun cells => (cells.length : Int),
    collections.map fun cells => (cells.length : Int), bodyCells, collectedCells⟩

def ofActors (states : List Actor) : Except PackError Packed := ofSnapshots (states.map .ofActor)

end Packed

inductive UnpackError where
  | pastColumn (index size : Nat)
  | unknownDirection
  deriving DecidableEq, Repr

def UnpackError.message : UnpackError → String
  | .pastColumn index size =>
    "index " ++ toString index ++ " is out of bounds for axis 0 with size " ++ toString size
  | .unknownDirection => "tuple index out of range"

namespace Packed

/-- A position in a column of `size` items, counted from the end when negative, and cut to the
column. -/
def clip (size : Nat) (i : Int) : Nat :=
  if i < 0 then (i + size).toNat else min i.toNat size

/-- The items from one position up to another one. -/
def slice {α : Type} (xs : List α) (start stop : Int) : List α :=
  let a := clip xs.length start
  (xs.drop a).take (clip xs.length stop - a)

def entry {α : Type} (xs : List α) (i : Nat) : Except UnpackError α :=
  match xs[i]? with
  | some x => .ok x
  | none => .error (.pastColumn i xs.length)

/-- Negative numbers count from the last direction. -/
def directionAt (n : Int) : Except UnpackError Direction :=
  if -4 ≤ n ∧ n < 4 then .ok (.ofIndex (n % 4).toNat) else .error .unknownDirection

/-- State number `i`, with its cells from the given positions on, and the positions after them. -/
def stateAt (p : Packed) (i : Nat) (bodyStart collectedStart : Int) :
    Except UnpackError (Actor × Int × Int) := do
  let bodyStop := bodyStart + (← entry p.bodyLength i)
  let collectedStop := collectedStart + (← entry p.collectedLength i)
  let row ← entry p.row i
  let col ← entry p.col i
  let direction ← directionAt (← entry p.direction i)
  let stepCount ← entry p.stepCount i
  pure (⟨row, col, direction.name, slice p.bodyCells bodyStart bodyStop,
    slice p.collectedCells collectedStart collectedStop, stepCount⟩, bodyStop, collectedStop)

/-- `n` states from number `i` on. -/
def statesFrom (p : Packed) (i : Nat) (bodyStart collectedStart : Int) :
    Nat → Except UnpackError (List Actor)
  | 0 => .ok []
  | n + 1 => do
    let (a, bodyStop, collectedStop) ← p.stateAt i bodyStart collectedStart
    let rest ← statesFrom p (i + 1) bodyStop collectedStop n
    pure (a :: rest)

def states (p : Packed) : Except UnpackError (List Actor) := p.statesFrom 0 0 0 p.row.length

/-- The head cells of the states. -/
def trajectory (p : Packed) : List Cell := p.row.zip p.col

end Packed

end BlockGrid
