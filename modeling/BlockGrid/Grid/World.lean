import BlockGrid.Grid.Actor
import BlockGrid.Number.ByteSize

/-!
# BlockGrid.Grid.World

The board of one challenge.

* `Layout`      — what a board is built from.
* `World`       — a board that can be played: start, goal and collectibles on open cells, one kind
  of objective at most.
* `LayoutError` — why a layout is no such board.
* `World.build` — the board of a layout.
* `isOpen`, `contains` — open cells, and states that stand on one.
-/

namespace BlockGrid

/-- An id may be any value. -/
structure Layout where
  challengeId : Json
  rows : Int
  cols : Int
  obstacles : List Cell
  goal : Option Cell
  collectibles : List Cell
  start : Cell
  facing : String

/-- What is shown of a value is text already. -/
inductive LayoutError where
  | tooSmall (rows cols : String)
  | sideTooLong
  | tooManyCells
  | noMemory (rows cols : Int)
  | obstacleOutside (cell : Cell) (rows cols : Int)
  | twoObjectives (shownId : String)
  | unknownDirection (name : String)
  | startClosed (cell : Cell)
  | goalClosed (cell : Cell)
  | collectibleClosed (cell : Cell)
  | repeatedCollectible
  deriving DecidableEq, Repr

/-- The board could not even be begun. -/
def LayoutError.isTooLarge : LayoutError → Bool
  | .sideTooLong | .tooManyCells | .noMemory _ _ => true
  | _ => false

def sizeShown (rows cols : Int) : String := toString rows ++ "x" ++ toString cols

def LayoutError.message : LayoutError → String
  | .tooSmall rows cols => "grid must be at least 1x1, got " ++ rows ++ "x" ++ cols
  | .sideTooLong => "Maximum allowed dimension exceeded"
  | .tooManyCells =>
    "array is too big; `arr.size * arr.dtype.itemsize` is larger than the maximum possible size."
  | .noMemory rows cols =>
    "Unable to allocate " ++ sizeInBytes (rows * cols).toNat ++ " for an array with shape "
      ++ Cell.shown (rows, cols) ++ " and data type bool"
  | .obstacleOutside cell rows cols =>
    "obstacle " ++ cell.shown ++ " is outside the " ++ sizeShown rows cols ++ " grid"
  | .twoObjectives id => "challenge " ++ id ++ " defines both a goal and collectibles"
  | .unknownDirection name => "unknown start direction " ++ quoted name
  | .startClosed cell => "start " ++ cell.shown ++ " is outside the grid or on an obstacle"
  | .goalClosed cell => "goal " ++ cell.shown ++ " is outside the grid or on an obstacle"
  | .collectibleClosed cell =>
    "collectible " ++ cell.shown ++ " is outside the grid or on an obstacle"
  | .repeatedCollectible => "collectibles must occupy distinct cells"

namespace Cell

def before (a b : Cell) : Bool := a.1 < b.1 || (a.1 == b.1 && a.2 < b.2)

/-- Puts a cell into an ascending list, once. -/
def insert (c : Cell) : List Cell → List Cell
  | [] => [c]
  | d :: ds => if c = d then d :: ds else if c.before d then c :: d :: ds else d :: insert c ds

/-- The cells of a list in ascending order, each once. -/
def ascending (cells : List Cell) : List Cell := cells.foldr insert []

def inside (rows cols : Int) (c : Cell) : Bool :=
  decide (0 ≤ c.1 ∧ c.1 < rows ∧ 0 ≤ c.2 ∧ c.2 < cols)

/-- Inside the grid and free of obstacles. -/
def isOpen (rows cols : Int) (obstacles : List Cell) (c : Cell) : Bool :=
  c.inside rows cols && !obstacles.contains c

end Cell

/-- Obstacles are held in ascending order, each once. -/
structure World where
  challengeId : Json
  rows : Int
  cols : Int
  obstacles : List Cell
  goal : Option Cell
  collectibles : List Cell
  start : Cell
  facing : Direction
  obstacles_inside : obstacles.all (Cell.inside rows cols) = true
  one_objective : goal = none ∨ collectibles = []
  start_open : start.isOpen rows cols obstacles = true
  goal_open : goal.all (Cell.isOpen rows cols obstacles) = true
  collectibles_open : collectibles.all (Cell.isOpen rows cols obstacles) = true
  collectibles_nodup : collectibles.Nodup

namespace World

theorem all_of_find? {α : Type} {p : α → Bool} {xs : List α}
    (h : xs.find? (fun x => !p x) = none) : xs.all p = true := by
  simp only [List.find?_eq_none] at h
  simp only [List.all_eq_true]
  intro x hx
  simpa using h x hx

/-- The board of a layout whose size is fit for a board. -/
def furnish (l : Layout) : Except LayoutError World :=
  let obstacles := Cell.ascending l.obstacles
  let closed := fun c => !Cell.isOpen l.rows l.cols obstacles c
  match ho : obstacles.find? (fun c => !Cell.inside l.rows l.cols c) with
  | some c => .error (.obstacleOutside c l.rows l.cols)
  | none =>
    if hg : l.goal = none ∨ l.collectibles = [] then
      match Direction.ofName? (lowercase l.facing) with
      | none => .error (.unknownDirection (lowercase l.facing))
      | some facing =>
        if hs : Cell.isOpen l.rows l.cols obstacles l.start = true then
          match hgo : l.goal.toList.find? closed with
          | some c => .error (.goalClosed c)
          | none =>
            match hc : l.collectibles.find? closed with
            | some c => .error (.collectibleClosed c)
            | none =>
              if hn : l.collectibles.Nodup then
                .ok ⟨l.challengeId, l.rows, l.cols, obstacles, l.goal, l.collectibles, l.start,
                  facing, all_of_find? ho, hg, hs,
                  by
                    have := all_of_find? hgo
                    cases h : l.goal <;> simp_all,
                  all_of_find? hc, hn⟩
              else .error .repeatedCollectible
        else .error (.startClosed l.start)
    else .error (.twoObjectives l.challengeId.shown)

/-- Sides and numbers of cells have sixty-three bits. -/
def countLimit : Int := Int.pow 2 63

/-- A cell takes a byte, and there are addresses for so many. -/
def memoryLimit : Int := Int.pow 2 47

/-- Sides that are too long together are no board, whatever lies on it. -/
def checkSize (rows cols : Int) : Except LayoutError Unit :=
  if countLimit ≤ rows ∨ countLimit ≤ cols then .error .sideTooLong
  else if countLimit ≤ rows * cols then .error .tooManyCells
  else if memoryLimit ≤ rows * cols then .error (.noMemory rows cols)
  else .ok ()

/-- The board of a layout whose sides are positive. -/
def place (l : Layout) : Except LayoutError World := do
  checkSize l.rows l.cols
  furnish l

def build (l : Layout) : Except LayoutError World :=
  if l.rows ≤ 0 ∨ l.cols ≤ 0 then .error (.tooSmall (toString l.rows) (toString l.cols))
  else place l

def isOpen (w : World) (c : Cell) : Bool := c.isOpen w.rows w.cols w.obstacles

/-- The head is on an open cell, the facing is known. -/
def contains (w : World) (a : Actor) : Bool := Direction.isKnown a.direction && w.isOpen a.position

/-- Worlds with collectibles grow a trail. -/
def grows (w : World) : Bool := !w.collectibles.isEmpty

def variant (w : World) : String :=
  if w.goal.isSome then "goal" else if w.grows then "collect" else "free"

/-- The declared start, with an empty trail. -/
def reset (w : World) : Actor := ⟨w.start.1, w.start.2, w.facing.name, [], [], 0⟩

def config (w : World) : Json :=
  .obj [("challenge_id", w.challengeId), ("rows", .int w.rows), ("cols", .int w.cols),
    ("obstacles", .arr (w.obstacles.map Cell.toJson)),
    ("goal", Json.ofOption Cell.toJson w.goal),
    ("collectibles", .arr (w.collectibles.map Cell.toJson)),
    ("start", w.start.toJson), ("start_direction", .str w.facing.name),
    ("variant", .str w.variant)]

def metadata (w : World) : Json :=
  .obj [("name", .str "ChallengeGridWorld"), ("version", .str "1.0.0"),
    ("description", .str "A bounded grid with obstacles and a goal or collectible objective"),
    ("config", w.config)]

end World

end BlockGrid
