import BlockGrid.Challenge.Issue
import BlockGrid.Grid.World

/-!
# BlockGrid.Challenge.Descriptor

Challenges as a catalog describes them.

* `Challenge`          — a descriptor whose fields all have their types.
* `Challenge.validate` — the challenge of a value; unknown fields are passed over. Whether text may
  hold unpaired halves is up to the checker.
* `Challenge.toJson`   — a challenge written back as plain data.
* `Challenge.world`    — its board.
-/

namespace BlockGrid

structure Challenge where
  id : LooseText
  title : LooseText
  description : LooseText
  difficulty : LooseText
  maxBlocks : Option Int
  rows : Int
  cols : Int
  obstacles : List Cell
  goal : Option Cell
  stars : List Cell
  start : Cell
  facing : Direction
  deriving Repr

namespace Challenge

open Checked

def cell (entries : Entries) : Checked Cell :=
  both (required "r" integer entries) (required "c" integer entries)

/-- Letter case does not count. -/
def direction (strict : Bool) (v : Json) : Checked Direction :=
  match string strict v with
  | .error es => .error es
  | .ok (.whole s) =>
    match Direction.ofName? (lowercase s) with
    | some d => .ok d
    | none => fail (.unknownDirection (lowercase s))
  | .ok name => fail (.unknownDirection name.lower)

def startCell (strict : Bool) (entries : Entries) : Checked (Cell × Direction) :=
  both (cell entries) (optional "dir" .right (direction strict) entries)

def grid (entries : Entries) : Checked (Int × Int) :=
  both (required "rows" positive entries) (required "cols" positive entries)

/-- The budget goes by two names, of which the first wins. -/
def budget (entries : Entries) : Checked (Option Int) :=
  match entries.get? "maxBlocks" with
  | some _ => optional "maxBlocks" none (nullable natural) entries
  | none => optional "max_blocks" none (nullable natural) entries

def ofEntries (strict : Bool) (es : Entries) : Checked Challenge :=
  let text := string strict
  let texts := both (optional "id" (.whole "custom") text es)
    (both (optional "title" (.whole "") text es)
      (both (optional "description" (.whole "") text es)
        (optional "difficulty" (.whole "easy") text es)))
  let board := both (required "grid" (object grid) es)
    (both (optional "obstacles" [] (list (object cell)) es)
      (both (optional "goal" none (nullable (object cell)) es)
        (both (optional "stars" [] (list (object cell)) es)
          (required "start" (object (startCell strict)) es))))
  (both texts (both (budget es) board)).map
    fun ((id, title, description, difficulty), maxBlocks, (rows, cols), obstacles, goal, stars,
      start, facing) =>
    ⟨id, title, description, difficulty, maxBlocks, rows, cols, obstacles, goal, stars, start,
      facing⟩

def validate (strict : Bool) : Json → Checked Challenge := object (ofEntries strict)

def cellJson (c : Cell) : Json := .obj [("r", .int c.1), ("c", .int c.2)]

def toJson (c : Challenge) : Json :=
  .obj [("id", .ofText c.id), ("title", .ofText c.title), ("description", .ofText c.description),
    ("difficulty", .ofText c.difficulty), ("max_blocks", Json.ofOption .int c.maxBlocks),
    ("grid", .obj [("rows", .int c.rows), ("cols", .int c.cols)]),
    ("obstacles", .arr (c.obstacles.map cellJson)),
    ("goal", Json.ofOption cellJson c.goal),
    ("stars", .arr (c.stars.map cellJson)),
    ("start", .obj [("r", .int c.start.1), ("c", .int c.start.2), ("dir", .str c.facing.name)])]

def layout (c : Challenge) : Layout :=
  ⟨.ofText c.id, c.rows, c.cols, c.obstacles, c.goal, c.stars, c.start, c.facing.name⟩

def world (c : Challenge) : Except LayoutError World := World.build c.layout

/-- Whether a program of so many blocks fits the budget; without a budget every program does. -/
def allows (c : Challenge) (blocks : Int) : Bool :=
  match c.maxBlocks with
  | some n => blocks ≤ n
  | none => true

end Challenge

/-- The first line of the report on a descriptor. -/
def issueSummary (issues : List Issue) : String :=
  toString issues.length ++ " validation error" ++ (if issues.length = 1 then "" else "s")
    ++ " for ChallengeSpec"

def Fault.message? : Fault → Option String
  | .unknownDirection name =>
    some ("Value error, dir must be one of " ++ Direction.listed ++ ", got " ++ name.quoted)
  | _ => none

/-- Why a descriptor gives no board. -/
inductive ChallengeError where
  | invalid (issues : List Issue)
  | layout (e : LayoutError)
  deriving DecidableEq, Repr

def ChallengeError.message : ChallengeError → String
  | .invalid issues => "invalid challenge descriptor: " ++ issueSummary issues
  | .layout e => e.message

/-- The board that a descriptor describes. -/
def World.ofDescriptor (strict : Bool) (v : Json) : Except ChallengeError World :=
  match Challenge.validate strict v with
  | .ok c => c.world.mapError .layout
  | .error issues => .error (.invalid issues)

end BlockGrid
