import BlockGrid.Trace.Basic

/-!
# BlockGrid.Trace.Recorder

Traces from what runs call back.

* `Received` — a state or a verdict.
* `Recorder` — the traces that are over and the one that is open.
* `receive`  — one callback. Without an open trace it opens one of its own.
-/

namespace BlockGrid

/-- A verdict counts as true or false by its truthiness, and is passed on as it came. -/
inductive Received where
  | state (a : Actor)
  | verdict (v : Json)

structure Recorder where
  forwardsStates : Bool
  forwardsVerdicts : Bool
  closed : List (Trace Actor)
  current : Option (Trace Actor)

namespace Recorder

def new (forwardsStates forwardsVerdicts : Bool) : Recorder :=
  ⟨forwardsStates, forwardsVerdicts, [], none⟩

/-- All traces in the order in which they were opened. -/
def traces (r : Recorder) : List (Trace Actor) := r.closed ++ r.current.toList

/-- An open trace is over when the next one begins. -/
def begin (r : Recorder) (challengeId : Json) (initial : Option Actor) (program : Json) :
    Recorder :=
  { r with closed := r.traces, current := some (.new challengeId initial program) }

def unknownId : Json := .str "unknown"

/-- The trace that the next callback goes to. -/
def target (r : Recorder) : Recorder × Trace Actor :=
  match r.current with
  | some t => (r, t)
  | none => (r.begin unknownId none .null, .new unknownId none .null)

def Received.addTo (t : Trace Actor) : Received → Trace Actor
  | .state a => { t with states := t.states ++ [a] }
  | .verdict v => { t with success := .bool v.isTruthy }

def forwards (r : Recorder) : Received → Bool
  | .state _ => r.forwardsStates
  | .verdict _ => r.forwardsVerdicts

/-- What is passed on, and the recorder after the callback. -/
def receive (r : Recorder) (x : Received) : List Received × Recorder :=
  let (r', t) := r.target
  (if r.forwards x then [x] else [], { r' with current := some (Received.addTo t x) })

/-- Closes the open trace, if there is one, with its outcome. -/
def finish (r : Recorder) (outcome : Json) : Option (Trace Actor) × Recorder :=
  match r.current with
  | some t =>
    let t' := { t with outcome := outcome }
    (some t', { r with closed := r.closed ++ [t'], current := none })
  | none => (none, r)

end Recorder

end BlockGrid
