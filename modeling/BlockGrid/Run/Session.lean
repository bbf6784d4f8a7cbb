import BlockGrid.Run.Course

/-!
# BlockGrid.Run.Session

One interpreter and several runs, driven from outside and from within the callbacks of the runs.

* `Request` — what may be asked: starts, going on with a suspended run, stops, new seeds.
* `Hook`    — requests that are made inside a callback, at its k-th occurrence.
* `Task`    — a start under a name, and what has become of it.
* `Session` — the interpreter, the tasks, the hooks to come and what has been noted.
* `Session.perform` — one request, with all that hooks add to it.

A task goes on until it sleeps, gives way or ends. An error inside a callback ends the run that
called back, and stays with its task.
-/

namespace BlockGrid

inductive Moment where
  | moved
  | reported
  | asleep
  deriving DecidableEq, Repr

inductive SessionError where
  | start (e : StartError)
  | state (e : StateError)
  | raised (kind message : String)
  deriving DecidableEq, Repr

inductive Request where
  | start (task : String) (t : Tree) (w : World) (initial : Initial)
  | resume (task : String) (times : Nat)
  | close (task : String)
  | stop
  | reset (w : World)
  | seed (state : Except StateError Actor)
  | look
  | raise (kind message : String)

/-- How often each moment has come. -/
structure Occurrences where
  moved : Nat
  reported : Nat
  asleep : Nat
  deriving DecidableEq, Repr

namespace Occurrences

def of (o : Occurrences) : Moment → Nat
  | .moved => o.moved
  | .reported => o.reported
  | .asleep => o.asleep

def add (o : Occurrences) : Moment → Occurrences
  | .moved => { o with moved := o.moved + 1 }
  | .reported => { o with reported := o.reported + 1 }
  | .asleep => { o with asleep := o.asleep + 1 }

end Occurrences

/-- Requests for an occurrence of a moment, counted from one. -/
structure Hook where
  moment : Moment
  occurrence : Nat
  requests : List Request

inductive Task where
  | suspended (j : Job)
  | busy
  | done
  | closed
  | failed (e : SessionError)

inductive Note where
  | run (e : Event)
  | reset (a : Actor)
  | looked (isRunning : Bool) (state : Option Actor) (outcome : Option Outcome)

/-- Messages below the threshold are not shown, nor any without one. -/
def Note.isShown (threshold : Option Level) : Note → Bool
  | .run (.logged log) => threshold.any fun l => l.rank ≤ log.level.rank
  | _ => true

/-- Notes are held last first. -/
structure Session where
  interpreter : Interpreter
  tasks : List (String × Task)
  hooks : List Hook
  occurrences : Occurrences
  back : List Note

namespace Session

def new (hooks : List Hook) : Session := ⟨.idle, [], hooks, ⟨0, 0, 0⟩, []⟩

def task? (s : Session) (name : String) : Option Task := s.tasks.lookup name

def putTask (name : String) (t : Task) : List (String × Task) → List (String × Task)
  | [] => [(name, t)]
  | (k, u) :: rest => if k = name then (k, t) :: rest else (k, u) :: putTask name t rest

/-- What is done to a session; what was done before an error stays done. -/
abbrev Drive := ExceptT SessionError (StateM Session)

def note (n : Note) : Drive Unit := modify fun s => { s with back := n :: s.back }

def setTask (name : String) (t : Task) : Drive Unit :=
  modify fun s => { s with tasks := putTask name t s.tasks }

def change (f : Interpreter → Interpreter) : Drive Unit :=
  modify fun s => { s with interpreter := f s.interpreter }

def noteLogs (logs : List Log) : Drive Unit := logs.forM fun log => note (.run (.logged log))

def took (r : Interpreter × List Log × Signal) : Drive Signal := do
  change fun _ => r.1
  noteLogs r.2.1
  pure r.2.2

def advance (j : Job) : Drive Signal := do took (j.advance (← get).interpreter)

/-- The moment has come once more. -/
def count (m : Moment) : Drive Unit :=
  modify fun s => { s with occurrences := s.occurrences.add m }

/-- A hook is due while its moment has come as often as it says. -/
def isDue (m : Moment) (h : Hook) : Drive Bool := do
  pure (h.moment = m ∧ h.occurrence = (← get).occurrences.of m)

section Callbacks

variable (call : Moment → Drive Unit)

/-- An error in a callback ends the run. -/
def callFrom (j : Job) (m : Moment) : Drive Unit :=
  tryCatch (call m) fun e => do
    change fun i => i.release j.run
    throw e

/-- Goes on until the run suspends or ends; it calls back twice at most before it does. -/
def follow : Nat → Signal → Drive Task
  | _, .ended => pure .done
  | _, .yielded j => pure (.suspended j)
  | _, .asleep m j => do
    note (.run (.slept m))
    callFrom call j .asleep
    pure (.suspended j)
  | _, .reported success none => do
    note (.run (.reported success))
    call .reported
    pure .done
  | 0, .moved _ j => pure (.suspended j)
  | 0, .reported _ (some j) => pure (.suspended j)
  | n + 1, .moved a j => do
    note (.run (.moved a))
    callFrom call j .moved
    follow n (← advance j)
  | n + 1, .reported success (some j) => do
    note (.run (.reported success))
    callFrom call j .reported
    follow n (← advance j)

/-- A task that is being carried out is busy; an error is what becomes of it. -/
def carryOut (name : String) (act : Drive Signal) : Drive Unit := do
  setTask name .busy
  setTask name (← tryCatch (do follow call 2 (← act)) fun e => pure (.failed e))

/-- Nothing happens to a task that is not suspended. -/
def resume (name : String) : Nat → Drive Unit
  | 0 => pure ()
  | n + 1 => do
    match (← get).task? name with
    | some (.suspended j) =>
      carryOut call name (advance j)
      resume name n
    | _ => pure ()

/-- A suspended task is given up: its run is over, and nothing is reported. -/
def close (name : String) : Drive Unit := do
  match (← get).task? name with
  | some (.suspended j) =>
    change fun i => i.release j.run
    setTask name .closed
  | _ => pure ()

/-- A name that is taken again gives up the task it stood for. -/
def start (name : String) (t : Tree) (w : World) (initial : Initial) : Drive Unit := do
  close name
  carryOut call name do
    match (← get).interpreter.start t w initial with
    | .ok r => took r
    | .error e => throw (.start e)

def request : Request → Drive Unit
  | .start name t w initial => start call name t w initial
  | .resume name times => resume call name times
  | .close name => close name
  | .stop => do
    let i := (← get).interpreter
    noteLogs i.stopLogs
    change Interpreter.stop
  | .reset w => do
    change fun i => i.reset w
    note (.reset w.reset)
  | .seed (.ok a) => change fun i => i.seed a
  | .seed (.error e) => throw (.state e)
  | .look => do
    let i := (← get).interpreter
    note (.looked i.isRunning i.state i.lastOutcome)
  | .raise kind message => throw (.raised kind message)

end Callbacks

/-- Goes through the hooks, carrying out those that are due. A hook inside another one waits for a
later occurrence, so hooks go no deeper than there are hooks. -/
def fire : Nat → Moment → Drive Unit
  | 0, m => count m
  | n + 1, m => do
    count m
    (← get).hooks.forM fun h => do
      if ← isDue m h then h.requests.forM (request (fire n))

/-- One request; the error that it came to, if any. -/
def perform (r : Request) (s : Session) : Option SessionError × Session :=
  match (request (fire s.hooks.length) r).run.run s with
  | (.ok (), s') => (none, s')
  | (.error e, s') => (some e, s')

/-- The notes so far, in order; none of them is left. -/
def takeNotes (s : Session) : List Note × Session := (s.back.reverse, { s with back := [] })

end Session

end BlockGrid
