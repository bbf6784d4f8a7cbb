import BlockGrid.Grid.Actor

/-!
# BlockGrid.Trace.Basic

What was observed of one run.

* `Trace`   — the states of a run in order, its verdict and its outcome.
* `final?`  — the last state, or the one that the run began in.
* `summary` — a trace in short.
-/

namespace BlockGrid

/-- `σ` is what a snapshot holds, and `ι` the state that the run began in. The rest may be any values;
a verdict or an outcome that is not known is null, and so is a program that was not recorded. -/
structure Trace (σ : Type) (ι : Type := σ) where
  challengeId : Json
  initial : Option ι
  states : List σ
  success : Json
  outcome : Json
  program : Json

namespace Trace

/-- A trace on which nothing has been recorded yet. -/
def new {σ : Type} (challengeId : Json) (initial : Option σ) (program : Json) : Trace σ :=
  ⟨challengeId, initial, [], .null, .null, program⟩

def final? {σ : Type} (t : Trace σ) : Option σ :=
  match t.states.getLast? with
  | some s => some s
  | none => t.initial

def summary (t : Trace Actor) : Json :=
  .obj [("challenge_id", t.challengeId), ("state_changes", .nat t.states.length),
    ("success", t.success), ("outcome", t.outcome),
    ("final_position", Json.ofOption (fun a => a.position.toJson) t.final?),
    ("collected", .nat (t.final?.elim 0 fun a => a.collected.length))]

end Trace

end BlockGrid
