import BlockGrid.Launch.CommandLine
import BlockGrid.Launch.Output
import BlockGrid.Launch.Setup
import BlockGrid.Launch.Verbosity
import BlockGrid.Run.Clock

/-!
# BlockGrid.Launch.Stage

A stage of a launch: what it puts out, and what it comes to. A stage that ends the launch is the
last one.

* `Host`   — where a launch takes place.
* `Ending` — why a launch is over before there is a verdict.
* `Stage`  — output and result, joined one after the other.
-/

namespace BlockGrid

/-- What is not the same everywhere: whether delays are waited for at all, whether the event loop
refuses one that is not a number, and whether the console, and the checker of descriptors, refuse
text with unpaired halves. -/
structure Host where
  sleeps : Bool
  refusesNaN : Bool
  strictConsole : Bool
  strictChecker : Bool
  deriving DecidableEq, Repr

def Host.clock (host : Host) : Clock :=
  if host.sleeps then .loop host.refusesNaN else fun _ => .elapsed

/-- Errors that a launch has no answer to. -/
inductive LaunchError where
  | settings (e : SettingsError)
  | setup (e : SetupError)
  | verbosity (e : VerbosityError)
  | encode (e : EncodeError)
  | start (e : StartError)
  | sleep (e : SleepError)
  | archive (e : ArchiveError)
  deriving DecidableEq, Repr

def LaunchError.message : LaunchError → String
  | .settings e => e.message
  | .setup e => e.message
  | .verbosity e => e.message
  | .encode e => e.message
  | .start e => e.message
  | .sleep e => e.message
  | .archive e => e.message

inductive Ending where
  | stopped (s : Stop)
  | rejected
  | endless
  | failed (e : LaunchError)
  deriving DecidableEq, Repr

structure Stage (α : Type) where
  output : List Output
  result : Except Ending α

namespace Stage

def done {α : Type} (a : α) : Stage α := ⟨[], .ok a⟩

def andThen {α β : Type} (s : Stage α) (f : α → Stage β) : Stage β :=
  match s.result with
  | .ok a => ⟨s.output ++ (f a).output, (f a).result⟩
  | .error e => ⟨s.output, .error e⟩

instance : Monad Stage where
  pure := done
  bind := andThen

theorem bind_ok {α β : Type} {s : Stage α} {a : α} (h : s.result = .ok a) (f : α → Stage β) :
    s >>= f = ⟨s.output ++ (f a).output, (f a).result⟩ := by
  simp only [bind, andThen, h]

theorem bind_error {α β : Type} {s : Stage α} {e : Ending} (h : s.result = .error e)
    (f : α → Stage β) : s >>= f = ⟨s.output, .error e⟩ := by
  simp only [bind, andThen, h]

def put (output : List Output) : Stage Unit := ⟨output, .ok ()⟩

/-- Over, after this output. -/
def stop {α : Type} (output : List Output) (e : Ending) : Stage α := ⟨output, .error e⟩

/-- Over with an error, if there is one. -/
def orFail {α ε : Type} (wrap : ε → LaunchError) : Except ε α → Stage α
  | .ok a => done a
  | .error e => stop [] (.failed (wrap e))

/-- A line that the console refuses is the last one. -/
def say (host : Host) (t : LooseText) : Stage Unit :=
  match t.encode with
  | .ok _ => put [.line t]
  | .error e => if host.strictConsole then stop [] (.failed (.encode e)) else put [.line t]

def sayAll (host : Host) : List LooseText → Stage Unit
  | [] => done ()
  | t :: ts => do
    say host t
    sayAll host ts

/-- Nothing comes after a delay that is not over some time. -/
def orWait : Sleep → Stage Unit
  | .elapsed => done ()
  | .endless => stop [] .endless
  | .refused e => stop [] (.failed (.sleep e))

end Stage

end BlockGrid
