import BlockGrid.Run.Outcome
import BlockGrid.Trace.Snapshot

/-!
# BlockGrid.Trace.Check

What is doubtful about a trace, as a list of warnings.

* `Bounds`         — the size of a grid, of which either side may be missing.
* `Snapshot.check` — the warnings of one snapshot.
* `Trace.check`    — those of the whole trace: on the verdict first, then snapshot by snapshot.

Values that cannot be compared with one another are an error, not a warning.
-/

namespace BlockGrid

/-- Values are compared with one another; `operator` is how. Outcomes and cells are looked up by
hash. -/
inductive CheckError where
  | notOrdered (operator left right : String)
  | noHash (kind : String)
  deriving DecidableEq, Repr

def CheckError.message : CheckError → String
  | .notOrdered operator left right =>
    "'" ++ operator ++ "' not supported between instances of '" ++ left ++ "' and '" ++ right ++ "'"
  | .noHash kind => "unhashable type: '" ++ kind ++ "'"

/-- Null is no bound. -/
structure Bounds where
  rows : Json
  cols : Json

namespace Bounds

def none : Bounds := ⟨.null, .null⟩

/-- Whether a comparison of two numbers holds. -/
def compare (operator : String) (holds : Extended → Extended → Bool) (a b : Json) :
    Except CheckError Bool :=
  match a.number?, b.number? with
  | some x, some y => .ok (holds x y)
  | _, _ => .error (.notOrdered operator a.kindName b.kindName)

/-- From zero on and below a bound. -/
def within (v bound : Json) : Except CheckError Bool := do
  if ← compare "<=" Extended.le (.int 0) v then compare "<" Extended.lt v bound else pure false

def contains (b : Bounds) (c : LooseCell) : Except CheckError Bool := do
  if ← within c.1 b.rows then within c.2 b.cols else pure false

def areGiven (b : Bounds) : Bool := !b.rows.isNull && !b.cols.isNull

end Bounds

def Json.isInteger : Json → Bool
  | .int _ => true
  | .bool _ => true
  | _ => false

/-- The name of an outcome. -/
def Json.isOutcome : Json → Bool
  | .str s => Outcome.isKnown s
  | _ => false

namespace LooseCell

def hasRepeats : List LooseCell → Bool
  | [] => false
  | c :: cs => cs.any (same c) || hasRepeats cs

/-- The first coordinate that cells cannot be looked up by. -/
def withoutHash? (cells : List LooseCell) : Option Json :=
  (cells.flatMap fun c => [c.1, c.2]).find? fun v => !v.hasHash

end LooseCell

namespace Snapshot

def label (i : Nat) : String := "snapshot " ++ toString i

def coordinateWarnings (i : Nat) (s : LooseActor) : List String :=
  if s.row.isInteger && s.col.isInteger then []
  else [label i ++ " has non-integer coordinates " ++ s.position.shown]

def directionWarnings (i : Nat) (s : LooseActor) : List String :=
  if s.facing?.isSome then [] else [label i ++ " has unknown direction " ++ s.direction.shown]

def boundsWarnings (i : Nat) (b : Bounds) (s : LooseActor) : Except CheckError (List String) :=
  if b.areGiven then do
    if ← b.contains s.position then pure []
    else pure [label i ++ " head " ++ s.position.shown ++ " is outside " ++ b.rows.spoken ++ "x"
      ++ b.cols.spoken]
  else .ok []

def repeatWarnings (i : Nat) (s : LooseActor) : Except CheckError (List String) :=
  match LooseCell.withoutHash? s.collected with
  | some v => .error (.noHash v.kindName)
  | none =>
    .ok (if LooseCell.hasRepeats s.collected then [label i ++ " lists a collectible more than once"]
      else [])

def check (i : Nat) (b : Bounds) : Snapshot → Except CheckError (List String)
  | .foreign v => .ok [label i ++ " should be an ActorState, got <class '" ++ v.kindName ++ "'>"]
  | .state s => do
    let outside ← boundsWarnings i b s
    let repeats ← repeatWarnings i s
    pure (coordinateWarnings i s ++ directionWarnings i s ++ outside ++ repeats)

def stepCount? : Snapshot → Option Json
  | .state s => some s.stepCount
  | .foreign _ => none

mutual

/-- Numbers go by size, texts by their characters and lists by the first items that differ. -/
def isLess : Json → Json → Except CheckError Bool
  | .str s, .str t => .ok (s < t)
  | .arr xs, .arr ys => areLess xs ys
  | a, b =>
    match a.text?, b.text? with
    | some s, some t => .ok (s.before t)
    | _, _ => Bounds.compare "<" Extended.lt a b

def areLess : List Json → List Json → Except CheckError Bool
  | _, [] => .ok false
  | [], _ :: _ => .ok true
  | x :: xs, y :: ys => if x.same y then areLess xs ys else isLess x y

end

/-- Steps are never taken back. -/
def stepWarnings (i : Nat) (steps : Json) (s : Snapshot) : Except CheckError (List String) := do
  match s.stepCount? with
  | some n =>
    if ← isLess n steps then pure [label i ++ " step count went backwards"] else pure []
  | none => pure []

/-- Snapshots from number `i` on, after a state with `steps` steps. -/
def checkAll (b : Bounds) (i : Nat) (steps : Json) : List Snapshot → Except CheckError (List String)
  | [] => .ok []
  | s :: rest => do
    let own ← s.check i b
    let back ← s.stepWarnings i steps
    let others ← checkAll b (i + 1) (s.stepCount?.getD steps) rest
    pure (own ++ back ++ others)

end Snapshot

namespace Trace

def outcomeWarnings {σ ι : Type} (t : Trace σ ι) : Except CheckError (List String) :=
  if t.outcome.isNull || t.outcome.isOutcome then .ok []
  else if t.outcome.hasHash then .ok ["unknown outcome " ++ t.outcome.shown]
  else .error (.noHash t.outcome.kindName)

def verdictWarnings {σ ι : Type} (t : Trace σ ι) : List String :=
  if !t.success.isNull && t.outcome.same (.str Outcome.cancelled.name) then
    ["cancelled runs should not carry a verdict"]
  else []

def check (t : LooseTrace) (b : Bounds) : Except CheckError (List String) := do
  let outcome ← t.outcomeWarnings
  let steps := t.initial.elim (.int 0) LooseActor.stepCount
  let snapshots ← Snapshot.checkAll b 0 steps t.states
  pure (outcome ++ t.verdictWarnings ++ snapshots)

end Trace

end BlockGrid
