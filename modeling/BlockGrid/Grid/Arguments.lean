import BlockGrid.Grid.World
import BlockGrid.Json.Names

/-!
# BlockGrid.Grid.Arguments

Boards from named arguments of any kind, read loosely.

* `ArgumentError`     — why the arguments give no board.
* `World.ofArguments` — the board of named arguments.
* `World.ofJson`      — the same for a value that should hold them.
-/

namespace BlockGrid

inductive ArgumentError where
  | notObject (kind : String)
  | name (e : NameError)
  | missing (names : List String)
  | notOrdered (kind : String)
  | notText (kind : String)
  | field (e : ReadError)
  | layout (e : LayoutError)
  deriving DecidableEq, Repr

namespace ArgumentError

def constructorName : String := "ChallengeGridWorld.__init__()"

/-- Names in quotes, the last two with a word between them. -/
def listed : List String → String
  | [] => ""
  | [a] => "'" ++ a ++ "'"
  | [a, b] => "'" ++ a ++ "' and '" ++ b ++ "'"
  | a :: rest => "'" ++ a ++ "', " ++ listed rest

def message : ArgumentError → String
  | .notObject kind =>
    "world.challenge_grid.world.ChallengeGridWorld() argument after ** must be a mapping, not "
      ++ kind
  | .name e => e.message constructorName
  | .missing names =>
    constructorName ++ " missing " ++ toString names.length ++ " required positional argument"
      ++ (if names.length = 1 then "" else "s") ++ ": " ++ listed names
  | .notOrdered kind => "'<=' not supported between instances of '" ++ kind ++ "' and 'int'"
  | .notText kind => "'" ++ kind ++ "' object has no attribute 'lower'"
  | .field e => e.message
  | .layout e => e.message

end ArgumentError

namespace Arguments

def required : List String := ["rows", "cols"]

/-- The name that the board itself goes by. -/
def taken : String := "self"

def known : List String :=
  ["rows", "cols", "obstacles", "goal", "collectibles", "start", "start_direction", "challenge_id"]

/-- Zero or below. What is not a number is neither. -/
def isFlat (v : Json) : Except ArgumentError Bool :=
  match v.number? with
  | some x => .ok (x.le (.ofInt 0))
  | none => .error (.notOrdered v.kindName)

/-- The second side is looked at only if the first one is long enough. -/
def checkSize (rows cols : Json) : Except ArgumentError Unit := do
  let small := .error (.layout (.tooSmall rows.spoken cols.spoken))
  if ← isFlat rows then small
  else if ← isFlat cols then small
  else pure ()

def cellOf (v : Json) : Except ReadError Cell := do
  let (row, col) ← v.pair
  let r ← row.toInteger
  let c ← col.toInteger
  pure (r, c)

def cellsOf (v : Json) : Except ReadError (List Cell) := do
  let items ← v.elements
  items.mapM cellOf

/-- Only the first two members count. -/
def corner (v : Json) : Except ReadError Cell := do
  let r ← (← v.element 0).toInteger
  let c ← (← v.element 1).toInteger
  pure (r, c)

def goalOf : Json → Except ReadError (Option Cell)
  | .null => .ok none
  | v => (corner v).map some

def layoutOf (entries : Entries) (rows cols : Json) : Except ArgumentError Layout := do
  let member := fun name default => (entries.get? name).getD default
  let read := fun {α : Type} (r : Except ReadError α) => r.mapError ArgumentError.field
  let rows ← read rows.toInteger
  let cols ← read cols.toInteger
  let obstacles ← read (cellsOf (member "obstacles" (.arr [])))
  let goal ← read (goalOf (member "goal" .null))
  let collectibles ← read (cellsOf (member "collectibles" (.arr [])))
  let start ← read (corner (member "start" (.arr [.int 0, .int 0])))
  let facing ← match member "start_direction" (.str "right") with
    | .str s => .ok s
    | .torn s h rest => .ok (LooseText.torn s h rest).escaped
    | v => .error (.notText v.kindName)
  pure ⟨member "challenge_id" (.str "custom"), rows, cols, obstacles, goal, collectibles, start,
    facing⟩

end Arguments

/-- Names are checked before values, the size before the other arguments are read. -/
def World.ofArguments (entries : Entries) : Except ArgumentError World := do
  (entries.checkNames Arguments.taken Arguments.known).mapError .name
  match entries.get? "rows", entries.get? "cols" with
  | some rows, some cols =>
    Arguments.checkSize rows cols
    let layout ← Arguments.layoutOf entries rows cols
    (World.place layout).mapError .layout
  | _, _ => .error (.missing (Arguments.required.filter fun name => (entries.get? name).isNone))

def World.ofJson : Json → Except ArgumentError World
  | .obj entries => ofArguments entries
  | v => .error (.notObject v.kindName)

end BlockGrid
