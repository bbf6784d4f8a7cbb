import BlockGrid.Grid.Direction
import BlockGrid.Json.Loose

/-!
# BlockGrid.Grid.Actor

The robot or snake head, at one instant.

* `Actor`       — head, facing, trail, what it has collected, unit steps taken.
* `Actor.toJson` — the form in which states travel.
* `Actor.ofJson` — states from that form and its older spellings: `dir` for `direction`,
  `collected` for `collectedStars`, `step_count` for `stepCount`, cells as pairs or as objects.
* `Actor.ofSeed` — the same for a state that a run is to begin in.
-/

namespace BlockGrid

/-- The facing is a name; a state from outside may hold one that is not known. The trail is held
nearest segment first, collected cells in the order of collection. -/
structure Actor where
  row : Int
  col : Int
  direction : String
  body : List Cell
  collected : List Cell
  stepCount : Int
  deriving DecidableEq, Repr, Inhabited

inductive StateError where
  | field (e : ReadError)
  | unknownDirection (name : LooseText)
  | noMembers (kind : String)
  | notState (kind : String)
  | closed (cell : Cell) (direction : String)
  deriving DecidableEq, Repr

namespace StateError

def message : StateError → String
  | .field e => e.message
  | .unknownDirection name => "Unknown direction: " ++ name.quoted
  | .noMembers kind => "'" ++ kind ++ "' object has no attribute 'get'"
  | .notState kind => "initial state must be an ActorState or dict, got " ++ kind
  | .closed cell direction =>
    cell.shown ++ " facing " ++ quoted direction ++ " is not an open cell with a known facing"

def quotedMessage : StateError → String
  | .field e => e.quotedMessage
  | e => e.message

end StateError

def Cell.toJson (c : Cell) : Json := .arr [.int c.1, .int c.2]

namespace Actor

def position (a : Actor) : Cell := (a.row, a.col)

def toJson (a : Actor) : Json :=
  .obj [("row", .int a.row), ("col", .int a.col), ("direction", .str a.direction),
    ("body", .arr (a.body.map Cell.toJson)),
    ("collectedStars", .arr (a.collected.map Cell.toJson)),
    ("stepCount", .int a.stepCount)]

/-- The member under the first name if there is one, else under the second, else the default. -/
def either (entries : Entries) (first second : String) (default : Json) : Json :=
  match entries.get? first with
  | some v => v
  | none => (entries.get? second).getD default

def cellOf (v : Json) : Except ReadError Cell := do
  let (row, col) ← match v with
    | .obj entries => pure (either entries "r" "row" .null, either entries "c" "col" .null)
    | v => v.pair
  let r ← row.toInteger
  let c ← col.toInteger
  pure (r, c)

def cellsOf (v : Json) : Except ReadError (List Cell) :=
  if v.isTruthy then do
    let items ← v.elements
    items.mapM cellOf
  else .ok []

def member (entries : Entries) (name : String) : Except ReadError Json :=
  match entries.get? name with
  | some v => .ok v
  | none => .error (.missing name)

def fieldsOf (entries : Entries) (direction : String) : Except ReadError Actor := do
  let row ← (← member entries "row").toInteger
  let col ← (← member entries "col").toInteger
  let body ← cellsOf ((entries.get? "body").getD .null)
  let collected ← cellsOf (either entries "collectedStars" "collected" .null)
  let stepCount ← (either entries "stepCount" "step_count" (.int 0)).toInteger
  pure ⟨row, col, direction, body, collected, stepCount⟩

def ofEntries (entries : Entries) : Except StateError Actor :=
  match (either entries "direction" "dir" (.str "right")).printed.lower with
  | .whole direction =>
    if Direction.isKnown direction then (fieldsOf entries direction).mapError .field
    else .error (.unknownDirection direction)
  | name => .error (.unknownDirection name)

def ofJson : Json → Except StateError Actor
  | .obj entries => ofEntries entries
  | v => .error (.noMembers v.kindName)

def ofSeed : Json → Except StateError Actor
  | .obj entries => ofEntries entries
  | v => .error (.notState v.kindName)

end Actor

end BlockGrid
