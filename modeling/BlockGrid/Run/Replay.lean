import BlockGrid.Run.Course
import BlockGrid.Trace.Recorder
import BlockGrid.Tree.Blocks

/-!
# BlockGrid.Run.Replay

A program run once in a world, from the declared start, and recorded.

* `Replay`       — the trace, the verdict and all that could be observed.
* `World.replay` — the replay of a program.
* `Actor.line`   — a state as a line of text.
-/

namespace BlockGrid

/-- A number, padded with blanks on the left to a width. -/
def padded (width : Nat) (n : Int) : String :=
  String.ofList ((toString n).toList.leftpad width ' ')

/-- The trail is mentioned when there is one, or when something was collected. -/
def Actor.line (a : Actor) : String :=
  let head := "  step " ++ padded 3 a.stepCount ++ "  at " ++ a.position.shown
    ++ " facing " ++ a.direction
  if a.body.isEmpty && a.collected.isEmpty then head
  else head ++ "  trail=" ++ toString a.body.length ++ " collected=" ++ toString a.collected.length

namespace Recorder

/-- What a recorder passes on of an event. -/
def observe (r : Recorder) : Event → List Received × Recorder
  | .moved a => r.receive (.state a)
  | .reported success => r.receive (.verdict (.bool success))
  | _ => ([], r)

/-- All that is passed on of several events, in order. -/
def observeAll (r : Recorder) : List Event → List Received × Recorder
  | [] => ([], r)
  | e :: es =>
    let (now, r) := r.observe e
    let (later, r) := r.observeAll es
    (now ++ later, r)

end Recorder

structure Replay where
  trace : Trace Actor
  success : Bool
  events : List Event
  passedOn : List Received

namespace Received

def line? : Received → Option String
  | .state a => some a.line
  | .verdict _ => none

def verdict? : Received → Option Bool
  | .state _ => none
  | .verdict v => some v.isTruthy

end Received

/-- The lines of the states that were passed on. -/
def Replay.lines (r : Replay) : List String := r.passedOn.filterMap Received.line?

/-- With `verbose` states are passed on as well as the verdict. A run without a verdict counts as
not successful. -/
def World.replay (w : World) (t : Tree) (verbose : Bool) : Except StartError Replay := do
  let program ← (Program.ofTree t).mapError .program
  let idle := Interpreter.idle.reset w
  let recorder := (Recorder.new verbose true).begin w.challengeId idle.state
    (.arr (Program.toJsonList program))
  let (i, events) ← idle.runThrough (.tuple (program.map .command)) w .unset
  let (passedOn, recorder) := recorder.observeAll events
  let outcome := Json.ofOption (fun o => .str (Outcome.name o)) i.lastOutcome
  let trace := (recorder.finish outcome).1.getD (.new w.challengeId none .null)
  pure ⟨trace, (passedOn.filterMap Received.verdict?).getLast?.getD false, events, passedOn⟩

end BlockGrid
