import BlockGrid.Launch.Stage

/-!
# BlockGrid.Launch.Verdict

A launch from its command line to its verdict: settings, setup, the block budget, the run, and the
archive if one is asked for.

* `launch`   — the whole launch.
* `exitCode` — zero for success, one for failure, two if the run was not begun.
-/

namespace BlockGrid

/-- How the run went, and its archive. -/
structure Verdict where
  success : Bool
  archive : Option Archive

namespace Launch

open Stage

def complaint (rank : Nat) (text : String) : List Output := Output.ofLog rank .launch ⟨.error, text⟩

/-- The file of settings has to hold an object; all other faults are answered. -/
def settings (folder : Folder) (arguments : List String) : Stage Settings :=
  match Options.parse arguments with
  | .error s => stop [] (.stopped s)
  | .ok o =>
    match Settings.ofOptions folder o with
    | .ok s => done s
    | .error (.merge e) => stop [] (.failed (.settings (.merge e)))
    | .error e =>
      stop (complaint Verbosity.initial ("Invalid configuration: " ++ e.message)) .rejected

def reject {α : Type} (rank : Nat) (e : SetupError) : Stage α :=
  if e.isAnswered then stop (complaint rank ("Cannot start run: " ++ e.message)) .rejected
  else stop [] (.failed (.setup e))

def orReject {α : Type} (rank : Nat) : Except SetupError α → Stage α
  | .ok a => done a
  | .error e => reject rank e

def loaded (c : Catalog) (path : String) : Log :=
  ⟨.info, "Loaded " ++ toString c.size ++ " challenges from " ++ path⟩

def setup (host : Host) (rank : Nat) (folder : Folder) (s : Settings) : Stage Setup := do
  let c ← orReject rank (Catalog.read host.strictChecker folder s.catalogPath)
  put (Output.ofLog rank .catalog (loaded c s.catalogPath))
  orReject rank (Setup.ofCatalog folder s c)

def limitShown (c : Challenge) (default : String) : String := c.maxBlocks.elim default toString

def isOverBudget (s : Settings) (u : Setup) : Bool :=
  s.enforceBlockLimit.isTruthy && !u.challenge.allows (countBlocks u.program)

def budget (rank : Nat) (verbose : Bool) (s : Settings) (u : Setup) : Stage Unit :=
  let used := toString (countBlocks u.program)
  let limit := limitShown u.challenge "None"
  if isOverBudget s u then
    stop (complaint rank ("Program uses " ++ used ++ " blocks but the limit is " ++ limit)
      ++ Output.ofLine verbose
        ("Too many blocks: " ++ used ++ " / " ++ limit ++ ". Try using repeat.")) .rejected
  else done ()

def rule (c : Char) : String := String.ofList (List.replicate 60 c)

/-- What is said before the run. -/
def heading (u : Setup) : List LooseText :=
  [rule '=', "Challenge: " ++ u.challenge.id ++ " - " ++ u.challenge.title,
    LooseText.whole ("World: " ++ sizeShown u.world.rows u.world.cols ++ " (" ++ u.world.variant
      ++ ") | Interpreter v" ++ Interpreter.version),
    LooseText.whole ("Blocks: " ++ toString (countBlocks u.program) ++ " / "
      ++ limitShown u.challenge "-"),
    rule '-']

/-- What is said after it. -/
def closing (r : Replay) : List Output :=
  [.line (rule '-'),
    .line (.whole ("Result: " ++ (if r.success then "SUCCESS" else "FAILURE") ++ " ("
      ++ r.trace.outcome.spoken ++ ")")),
    .took r.trace.states.length, .line (rule '=')]

def onlyIf (verbose : Bool) (output : List Output) : List Output := if verbose then output else []

def play (host : Host) (rank : Nat) (verbose : Bool) (s : Settings) (u : Setup) :
    Stage Replay := do
  sayAll host (if verbose then heading u else [])
  let r ← orFail .start (u.world.replay (.tuple (u.program.map .command)) verbose)
  let (shown, sleep) := host.clock.through s.pacing r.events
  put (shown.flatMap (Output.ofEvent rank verbose s.pacing))
  orWait sleep
  pure r

def archive (folder : Folder) (stamp : String) (verbose : Bool) (s : Settings) (w : World)
    (t : Trace Actor) : Stage (Option Archive) :=
  if s.exportDir.isTruthy then do
    let a ← orFail .archive (Archive.ofRun folder stamp s w t)
    put (onlyIf verbose [.saved a])
    pure (some a)
  else done none

/-- All that follows the settings. -/
def ofSettings (host : Host) (folder : Folder) (stamp : String) (s : Settings) :
    Stage Verdict := do
  let rank ← orFail .verbosity (Verbosity.ofJson s.logLevel)
  let verbose := s.logToConsole.isTruthy
  let u ← setup host rank folder s
  budget rank verbose s u
  let r ← play host rank verbose s u
  let a ← archive folder stamp verbose s u.world r.trace
  put (onlyIf verbose (closing r))
  pure ⟨r.success, a⟩

end Launch

/-- `stamp` is the time of the launch. -/
def launch (host : Host) (folder : Folder) (stamp : String) (arguments : List String) :
    Stage Verdict := do
  let s ← Launch.settings folder arguments
  Launch.ofSettings host folder stamp s

/-- No number for errors that have no answer, and none for a launch that is never over. -/
def Stage.exitCode (s : Stage Verdict) : Option Nat :=
  match s.result with
  | .ok v => some (if v.success then 0 else 1)
  | .error .rejected => some 2
  | .error _ => none

end BlockGrid
