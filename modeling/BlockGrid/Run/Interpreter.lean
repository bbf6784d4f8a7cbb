import BlockGrid.Command.Count
import BlockGrid.Command.Walker
import BlockGrid.Run.Log
import BlockGrid.Run.Outcome
import BlockGrid.Tree.Program

/-!
# BlockGrid.Run.Interpreter

Runs of a program in a world, one piece at a time.

* `Interpreter` — what all runs share: the run in progress, the state last seen, the last outcome.
* `Job`         — one accepted run, at the point where it will go on.
* `Signal`      — what a run has come to: it sleeps, it gives way, it has moved, it reports, it is
  over.
* `start`       — the admission of a run. Busy, malformed, empty and misplaced starts are refused
  and change nothing but the last outcome.
* `StartError`  — what a start has no refusal for.
* `Job.advance` — the next piece of a run.

Between two pieces anything may happen to the interpreter: another run may be started after a
`stop`, and the stopped run still be asleep. A stopped run notices when it is advanced.
-/

namespace BlockGrid

/-- The latest accepted run, until it is over: its number, whether it was stopped, and how many of
its effects have been applied. -/
structure Current where
  run : Nat
  stopped : Bool
  applied : Nat
  deriving DecidableEq, Repr

structure Interpreter where
  current : Option Current
  state : Option Actor
  accepted : Nat
  lastOutcome : Option Outcome
  deriving DecidableEq, Repr

namespace Interpreter

def version : String := "1.0.0"

def idle : Interpreter := ⟨none, none, 0, none⟩

def isRunning (i : Interpreter) : Bool := i.current.any fun c => !c.stopped

/-- Run `n` is the latest and not over. -/
def holds (i : Interpreter) (n : Nat) : Bool := i.current.any fun c => c.run == n

/-- Run `n` is in progress and was not stopped. -/
def isLive (i : Interpreter) (n : Nat) : Bool := i.current.any fun c => c.run == n && !c.stopped

/-- The state for the next start that brings none of its own. -/
def seed (i : Interpreter) (a : Actor) : Interpreter := { i with state := some a }

def reset (i : Interpreter) (w : World) : Interpreter := i.seed w.reset

/-- The mark of a run that has been asked to stop. -/
def stop (i : Interpreter) : Interpreter :=
  { i with current := i.current.map fun c => { c with stopped := true } }

def runText (n : Nat) : String := "Run " ++ toString n ++ ": "

/-- Stopping is noted when there is something to stop. -/
def stopLogs (i : Interpreter) : List Log :=
  match i.current with
  | some c =>
    if c.stopped then []
    else [⟨.info, runText c.run ++ "stop requested after " ++ toString c.applied ++ " effects"⟩]
  | none => []

/-- Run `n` is over. -/
def release (i : Interpreter) (n : Nat) : Interpreter :=
  if i.holds n then { i with current := none } else i

/-- An effect of the run in progress has led to `a`. -/
def applied (i : Interpreter) (a : Actor) : Interpreter :=
  { i with
    state := some a
    current := i.current.map fun c => { c with applied := c.applied + 1 } }

def concluded (i : Interpreter) (o : Outcome) : Interpreter := { i with lastOutcome := some o }

end Interpreter

/-- Where a run goes on: before its next effect, after the delay before a motion, or after its
report. -/
inductive Point where
  | looking
  | asleep (m : Motion)
  | leaving
  deriving DecidableEq, Repr

structure Job where
  run : Nat
  world : World
  actor : Actor
  walker : Walker Tree
  point : Point

inductive Signal where
  | asleep (m : Motion) (job : Job)
  | yielded (job : Job)
  | moved (a : Actor) (job : Job)
  | reported (success : Bool) (job : Option Job)
  | ended

namespace Job

def text (j : Job) (s : String) : String := Interpreter.runText j.run ++ s

/-- A stopped run ends without a report. -/
def cancel (j : Job) (i : Interpreter) : Interpreter × List Log × Signal :=
  let i' := if i.holds j.run then i.concluded .cancelled else i
  (i'.release j.run, [⟨.info, j.text "cancelled, no verdict"⟩], .ended)

def report (j : Job) (i : Interpreter) (o : Outcome) (log : Log) :
    Interpreter × List Log × Signal :=
  (i.concluded o, [log], .reported (o == .success) (some { j with point := .leaving }))

def block (j : Job) (i : Interpreter) : Interpreter × List Log × Signal :=
  j.report i .illegalMove
    ⟨.info, j.text ("blocked at " ++ j.actor.position.shown ++ " facing " ++ j.actor.direction)⟩

def conclude (j : Job) (i : Interpreter) : Interpreter × List Log × Signal :=
  let o := j.world.outcome j.actor
  j.report i o ⟨.info, j.text ("finished at " ++ j.actor.position.shown ++ ", outcome " ++ o.name)⟩

def motionName : Motion → String
  | .step => Kind.step.name
  | .turn _ => Kind.turn.name

def appliedLogs (j : Job) (m : Motion) (r : StepResult) : List Log :=
  let gathered := match r.collected with
    | some c => [⟨.debug, j.text ("collected " ++ c.shown)⟩]
    | none => []
  gathered ++ [⟨.debug, j.text (motionName m ++ " -> " ++ r.actor.position.shown ++ " "
    ++ r.actor.direction)⟩]

/-- The delay is over. A motion that cannot be made ends the run. -/
def apply (j : Job) (i : Interpreter) (m : Motion) : Interpreter × List Log × Signal :=
  match j.world.step j.actor m with
  | .error _ => j.block i
  | .ok r =>
    if r.legal then
      (i.applied r.actor, j.appliedLogs m r,
        .moved r.actor { j with actor := r.actor, point := .looking })
    else j.block i

/-- What was not recognized is passed over, giving way once. -/
def take (j : Job) (i : Interpreter) (a : Action Tree) (walker : Walker Tree) :
    Interpreter × List Log × Signal :=
  let sleep := fun m => (i, [], Signal.asleep m { j with walker := walker, point := .asleep m })
  match a with
  | .move _ => sleep .step
  | .turn way => sleep (.turn way)
  | .unrecognized raw reason =>
    (i, [⟨.warning, "Skipping " ++ reason ++ ": " ++ raw.shown⟩],
      .yielded { j with walker := walker, point := .looking })

def advance (j : Job) (i : Interpreter) : Interpreter × List Log × Signal :=
  match j.point with
  | .leaving => (i.release j.run, [], .ended)
  | .asleep m => if i.isLive j.run then j.apply i m else j.cancel i
  | .looking =>
    if i.isLive j.run then
      match j.walker.next? with
      | some (a, walker) => j.take i a walker
      | none => j.conclude i
    else j.cancel i

end Job

/-- The state that a start asks for: none in particular, a state, or one in travelling form. -/
inductive Initial where
  | unset
  | actor (a : Actor)
  | wire (v : Json)

/-- Null asks for none in particular. -/
def Initial.ofJson : Json → Initial
  | .null => .unset
  | v => .wire v

/-- The state asked for, else the one last seen, else the declared start of the world. -/
def Initial.resolve (i : Interpreter) (w : World) : Initial → Except StateError Actor
  | .unset => .ok (i.state.getD w.reset)
  | .actor a => .ok a
  | .wire v => Actor.ofSeed v

/-- Positions past the end of a sequence, and numbers beyond every integer, are no errors of a
value. -/
def ReadError.isCaught : ReadError → Bool
  | .infinite => false
  | .pastList => false
  | .pastString => false
  | _ => true

/-- The errors that a start turns into a refusal. What is asked for its members without having any
is not what the caller is to blame for. -/
def StateError.isCaught : StateError → Bool
  | .field e => e.isCaught
  | .noMembers _ => false
  | _ => true

inductive StartError where
  | program (e : ProgramError)
  | state (e : StateError)
  deriving DecidableEq, Repr

def StartError.message : StartError → String
  | .program e => e.message
  | .state e => e.message

inductive Refusal where
  | busy
  | malformed (kind : String)
  | empty
  | invalid (e : StateError)
  deriving DecidableEq, Repr

namespace Refusal

def outcome : Refusal → Outcome
  | .busy => .busy
  | .malformed _ => .malformedProgram
  | .empty => .emptyProgram
  | .invalid _ => .invalidState

def log : Refusal → Log
  | .busy => ⟨.warning, "Start rejected: a run is already in progress"⟩
  | .malformed kind => ⟨.error, "Start rejected: " ++ (ProgramError.notSequence kind).message⟩
  | .empty => ⟨.error, "Start rejected: empty program"⟩
  | .invalid e => ⟨.error, "Start rejected: invalid initial state: " ++ e.quotedMessage⟩

end Refusal

namespace Interpreter

/-- The state to begin from, on an open cell. -/
def initialState (i : Interpreter) (w : World) (initial : Initial) : Except StateError Actor := do
  let a ← initial.resolve i w
  if w.contains a then pure a else throw (.closed a.position a.direction)

def refuse (i : Interpreter) (r : Refusal) : Interpreter × List Log × Signal :=
  (i.concluded r.outcome, [r.log], .reported false none)

def startLog (n : Nat) (p : Program Tree) (a : Actor) : Log :=
  ⟨.info, runText n ++ toString p.length ++ " top-level commands, " ++ toString (countEffects p)
    ++ " effects, start at " ++ a.position.shown ++ " facing " ++ a.direction⟩

/-- A new run, number one more than the last. It goes on at once. -/
def accept (i : Interpreter) (p : Program Tree) (w : World) (a : Actor) :
    Interpreter × List Log × Signal :=
  let n := i.accepted + 1
  let job : Job := ⟨n, w, a, .ofProgram p, .looking⟩
  let (i', logs, signal) := job.advance ⟨some ⟨n, false, 0⟩, some a, n, i.lastOutcome⟩
  (i', startLog n p a :: logs, signal)

/-- The first reason to refuse wins. A numeral that is none is no refusal but an error, and so is an
infinite number in a state. -/
def start (i : Interpreter) (t : Tree) (w : World) (initial : Initial) :
    Except StartError (Interpreter × List Log × Signal) :=
  if i.isRunning then .ok (i.refuse .busy)
  else
    match Program.ofTree t with
    | .error (.notSequence kind) => .ok (i.refuse (.malformed kind))
    | .error e => .error (.program e)
    | .ok p =>
      if p.isEmpty then .ok (i.refuse .empty)
      else
        match i.initialState w initial with
        | .error e => if e.isCaught then .ok (i.refuse (.invalid e)) else .error (.state e)
        | .ok a => .ok (i.accept p w a)

end Interpreter

end BlockGrid
