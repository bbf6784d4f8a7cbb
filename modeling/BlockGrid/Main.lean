import BlockGrid.Launch.Verdict
import BlockGrid.Trace.Document

/-!
# BlockGrid.Main

The command line. Files that an argument may mean are read first; then the launch is put out piece
by piece, with its pauses.
-/

namespace BlockGrid

namespace Main

/-- An argument, and the value that may be attached to it. -/
def mentions (arguments : List String) : List String :=
  arguments.flatMap fun a =>
    match Word.assignment? a.toList with
    | some (_, value) => [a, value]
    | none => [a]

def isFolder (path : String) : IO Bool :=
  try
    (← IO.FS.realPath path).isDir
  catch _ => pure false

def content? (path : String) : IO (Option String) :=
  try
    let text ← IO.FS.readFile path
    pure (some text)
  catch _ => pure none

/-- A path and all the paths that it goes through. -/
def stops (p : Path) : List Path :=
  (List.range (p.steps.length + 1)).map fun n => ⟨p.root, p.steps.take n⟩

def readFolder (paths : List String) : IO Folder := do
  let mut files := []
  let mut folders := []
  for p in paths.flatMap (stops ∘ Path.ofText) do
    if ← isFolder p.text then folders := p.resolved :: folders
    else if let some text ← content? p.text then files := (p.resolved, text) :: files
  pure ⟨files, folders⟩

/-- Seconds with two decimal places. -/
def seconds (milliseconds : Nat) : String :=
  let hundredths := milliseconds / 10
  toString (hundredths / 100) ++ "." ++ String.ofList (Store.zeroPadded 2 (hundredths % 100))

/-- Whole milliseconds of a delay in seconds. -/
def milliseconds (delay : Json) : Nat :=
  match delay.number? with
  | some (.finite x) => (Scaled.trunc ⟨1000 * x.mantissa, x.exponent⟩).toNat
  | _ => 0

/-- Milliseconds of a day. -/
def day : Nat := 24 * 60 * 60 * 1000

/-- Waits day by day. -/
def waitFor (milliseconds : Nat) : IO Unit := do
  for _ in [0 : milliseconds / day] do
    IO.sleep day.toUInt32
  IO.sleep (milliseconds % day).toUInt32

def putOutput (begun : Nat) (o : Output) : IO Unit := do
  let now ← IO.monoMsNow
  if let some text := o.line? (seconds (now - begun)) then IO.println text.escaped
  if let some (source, log) := o.message? then
    IO.eprintln (log.level.name ++ ":" ++ source.name ++ ":" ++ log.text)
  if let some delay := o.pause? then waitFor (milliseconds delay)

def keep (a : Archive) : IO Unit := do
  let folder := a.place.text
  IO.FS.createDirAll folder
  IO.FS.writeFile (folder ++ "/world.json") a.store.worldConfig.render
  IO.FS.writeFile (folder ++ "/traces.json") (a.store.document a.session).render

def usage : String :=
  "usage: blockgrid [-h] [--config FILE] [--fast] [--move-delay SECONDS] [--turn-delay SECONDS] "
    ++ "[--ignore-block-limit] [--export-dir FOLDER] [--quiet] [--log-level LEVEL] "
    ++ "catalog challenge program"

def finish (s : Stage Verdict) : IO UInt32 := do
  match s.result with
  | .error (.stopped .help) =>
    IO.println usage
    pure 0
  | .error (.stopped _) =>
    IO.eprintln usage
    pure 2
  | .error (.failed e) =>
    IO.eprintln e.message
    pure 1
  | .error .endless =>
    -- Longer than anything lasts.
    waitFor (Nat.pow 10 30)
    pure 1
  | .ok v =>
    if let some a := v.archive then keep a
    pure (if v.success then 0 else 1)
  | .error .rejected => pure 2

/-- Lone halves are not written. -/
def host : Host where
  sleeps := true
  refusesNaN := true
  strictConsole := true
  strictChecker := false

def run (arguments : List String) : IO UInt32 := do
  let folder ← readFolder (mentions arguments)
  let begun ← IO.monoMsNow
  let s := launch host folder (toString begun) arguments
  for o in s.output do
    putOutput begun o
  finish s

end Main

end BlockGrid

def main (arguments : List String) : IO UInt32 := BlockGrid.Main.run arguments
