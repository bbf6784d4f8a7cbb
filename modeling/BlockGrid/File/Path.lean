import BlockGrid.Text.Quoted

/-!
# BlockGrid.File.Path

Paths of files. Empty steps and steps that stay in place do not count, so that different spellings
of a path have one text.

* `Path.ofText`   — the path of a text.
* `Path.text`     — its one text.
* `Path.join`     — a path seen from another one.
* `Path.enter`    — one step further, where a step may lead back up.
* `Path.resolved` — a path without the steps that lead back up, as far as they cancel out.
* `Path.isAbove`  — a path that another one goes through.
* `Path.suffix`   — the end of the last name, from its last point on.
-/

namespace BlockGrid

/-- Two leading slashes are a root of their own; more than two are one. -/
structure Path where
  root : List Char
  steps : List (List Char)
  deriving DecidableEq, Repr

namespace Path

/-- Pieces of a text between separators. -/
def split (separator : Char) : List Char → List (List Char)
  | [] => [[]]
  | c :: cs =>
    match split separator cs with
    | [] => [[c]]
    | piece :: pieces => if c = separator then [] :: piece :: pieces else (c :: piece) :: pieces

def isStep (piece : List Char) : Bool := piece ≠ [] ∧ piece ≠ ['.']

def rootOf (s : List Char) : List Char :=
  match (s.takeWhile (· = '/')).length with
  | 0 => []
  | 2 => ['/', '/']
  | _ => ['/']

def ofText (s : String) : Path := ⟨rootOf s.toList, (split '/' s.toList).filter isStep⟩

/-- A text that does not end with a step can only mean a folder. -/
def asksFolder (s : String) : Bool := !((split '/' s.toList).getLast?.any isStep)

/-- The path with no steps is the place itself. -/
def text (p : Path) : String :=
  if p.root = [] ∧ p.steps = [] then "."
  else String.ofList (p.root ++ ['/'].intercalate p.steps)

/-- A path with a root does not depend on where it is seen from. -/
def join (p q : Path) : Path := if q.root = [] then ⟨p.root, p.steps ++ q.steps⟩ else q

/-- The step that leads to the folder around. -/
def upward : List Char := ['.', '.']

/-- Above a root there is only the root itself. -/
def up (p : Path) : Path :=
  match p.steps.getLast? with
  | none => if p.root = [] then ⟨[], [upward]⟩ else p
  | some step => if step = upward then ⟨p.root, p.steps ++ [upward]⟩ else ⟨p.root, p.steps.dropLast⟩

def enter (p : Path) (step : List Char) : Path :=
  if step = upward then p.up else ⟨p.root, p.steps ++ [step]⟩

/-- The beginning of a path, without any step. -/
def base (p : Path) : Path := ⟨p.root, []⟩

def resolved (p : Path) : Path := p.steps.foldl enter p.base

/-- Whether a path leads to something that lies further in. -/
def isAbove (p q : Path) : Bool :=
  p.root = q.root && p.steps.isPrefixOf q.steps && p.steps.length < q.steps.length

def name (p : Path) : List Char := p.steps.getLast?.getD []

/-- A name that begins with its only point has no suffix, nor has one that ends with a point. -/
def suffixOf (name : List Char) : String :=
  let back := name.reverse
  let tail := back.takeWhile (· ≠ '.')
  let stem := (back.dropWhile (· ≠ '.')).drop 1
  if back.contains '.' ∧ tail ≠ [] ∧ stem ≠ [] then String.ofList ('.' :: tail.reverse) else ""

def suffix (p : Path) : String := suffixOf p.name

end Path

end BlockGrid
