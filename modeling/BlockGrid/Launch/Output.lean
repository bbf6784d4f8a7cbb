import BlockGrid.Launch.Archive
import BlockGrid.Run.Course
import BlockGrid.Run.Pacing
import BlockGrid.Run.Replay

/-!
# BlockGrid.Launch.Output

What a launch puts out, piece by piece: lines, messages and pauses.

* `Output`         — one piece. How long the run took is left open.
* `Output.line?`   — the line of a piece, once that is known.
* `Output.ofEvent` — the pieces of an event of the run.
-/

namespace BlockGrid

/-- Where messages come from. -/
inductive Source where
  | launch
  | catalog
  | run
  deriving DecidableEq, Repr

def Source.name : Source → String
  | .launch => "runner"
  | .catalog => "world.challenge_grid.catalog"
  | .run => "interpreter.interpreter"

inductive Output where
  | line (t : LooseText)
  | saved (a : Archive)
  | took (changes : Nat)
  | message (source : Source) (log : Log)
  | pause (delay : Json)

namespace Output

def line? (duration : String) : Output → Option LooseText
  | .line t => some t
  | .saved a => some ("Trace saved to: " ++ a.place.text : String)
  | .took changes =>
    some ("State changes: " ++ toString changes ++ " in " ++ duration ++ " seconds" : String)
  | .message _ _ => none
  | .pause _ => none

def message? : Output → Option (Source × Log)
  | .message source log => some (source, log)
  | _ => none

def pause? : Output → Option Json
  | .pause delay => some delay
  | _ => none

/-- Messages below the rank are left out. -/
def ofLog (rank : Nat) (source : Source) (log : Log) : List Output :=
  if rank ≤ log.level.rank then [.message source log] else []

def ofLine (verbose : Bool) (s : String) : List Output := if verbose then [.line s] else []

def ofEvent (rank : Nat) (verbose : Bool) (pacing : Pacing) : Event → List Output
  | .logged log => ofLog rank .run log
  | .slept m => [.pause (pacing.delay m)]
  | .moved a => ofLine verbose a.line
  | .reported _ => []

end Output

end BlockGrid
