import BlockGrid.File.Path
import BlockGrid.Json.Writer
import BlockGrid.Trace.ArrayText
import BlockGrid.Trace.Check
import BlockGrid.Trace.Compression
import BlockGrid.Trace.Label
import BlockGrid.Trace.Packed

/-!
# BlockGrid.Trace.Store

Traces kept by name, with the world they were recorded in.

* `Entry`        — one stored run. What it lacks was never known.
* `Store.opened` — a store without any run. Its compression is noted on it.
* `Store.write`  — stores a trace under the next name. A name is taken before anything is written
  under it, and stays taken when the rest cannot be.
* `Store.read`   — the trace under a name.
-/

namespace BlockGrid

/-- The verdict is a number, below zero for none. -/
structure Entry where
  challengeId : String
  outcome : String
  success : Int
  program : Option Json
  initial : Option Json
  columns : Packed

structure StoreOptions where
  validates : Bool
  compression : Compression

/-- Names without an entry are those of runs that were not written to the end. -/
structure Store where
  options : StoreOptions
  world : Option Json
  entries : List (String × Option Entry)
  count : Nat

inductive WriteError where
  | check (e : CheckError)
  | noBounds (kind : String)
  | nameTaken
  | label (e : LabelError)
  | verdict (e : ReadError)
  | pack (e : PackError)
  | compression (e : CompressionError)
  deriving DecidableEq, Repr

def WriteError.message : WriteError → String
  | .check e => e.message
  | .noBounds kind => "'" ++ kind ++ "' object has no attribute 'get'"
  | .nameTaken => "Unable to synchronously create group (name already exists)"
  | .label e => e.message
  | .verdict e => e.message
  | .pack e => e.message
  | .compression e => e.message

inductive ReadBackError where
  | noNumber (kind : String)
  | notWhole
  | notFound (name : String)
  | incomplete
  | initial (e : StateError)
  | unpack (e : UnpackError)
  deriving DecidableEq, Repr

def ReadBackError.message : ReadBackError → String
  | .noNumber kind => "unsupported format string passed to " ++ kind ++ ".__format__"
  | .notWhole => "Unknown format code 'd' for object of type 'float'"
  | .notFound name => "Run " ++ name ++ " not found"
  | .incomplete => "Unable to synchronously open object (object 'row' doesn't exist)"
  | .initial e => e.message
  | .unpack e => e.message

namespace Store

def empty (options : StoreOptions) : Store := ⟨options, none, [], 0⟩

def opened (options : StoreOptions) : Except LabelError Store :=
  options.compression.noted.checkLabel.map fun _ => empty options

/-- Zeros stand between a sign and the digits. -/
def zeroPadded (width : Nat) (n : Int) : List Char :=
  let digits := Nat.toDigits 10 n.natAbs
  if n < 0 then '-' :: digits.leftpad (width - 1) '0' else digits.leftpad width '0'

def runName (n : Int) : String := "run_" ++ String.ofList (zeroPadded 4 n)

/-- The name of a run that is asked for by name or by number. -/
def nameOf : Json → Except ReadBackError String
  | .str name => .ok name
  | .int n => .ok (runName n)
  | .bool b => .ok (runName (if b then 1 else 0))
  | .float _ => .error .notWhole
  | .torn s h rest => .error (.notFound (LooseText.torn s h rest).escaped)
  | v => .error (.noNumber v.kindName)

def saveWorld (s : Store) (config : Json) : Store := { s with world := some config }

/-- The size of the world saved last. An empty description gives none. -/
def bounds (s : Store) : Except WriteError Bounds :=
  match s.world with
  | none => .ok .none
  | some config =>
    if config.isTruthy then
      match config with
      | .obj entries =>
        .ok ⟨(Entries.get? "rows" entries).getD .null, (Entries.get? "cols" entries).getD .null⟩
      | v => .error (.noBounds v.kindName)
    else .ok .none

def warnings (s : Store) (t : LooseTrace) : Except WriteError (List String) :=
  if s.options.validates then do
    let b ← s.bounds
    let found ← (t.check b).mapError .check
    pure (found.map fun w => "Validation: " ++ w)
  else .ok []

def successNumber (success : Json) : Except WriteError Int :=
  if success.isNull then .ok (-1) else success.toInteger.mapError .verdict

def successOf (n : Int) : Json := if n < 0 then .null else .bool (n != 0)

/-- An outcome that is not known, or empty, is stored as such. -/
def knownOutcome (outcome : Json) : Json := if outcome.isTruthy then outcome else .str "unknown"

/-- The text that a value is read back as. -/
def label (v : Json) : Except WriteError String :=
  (v.checkLabel.mapError .label).map fun _ => v.arrayText

/-- What is stored of a trace. Without any state there is nothing to compress. -/
def entryOf (s : Store) (t : LooseTrace) : Except WriteError Entry := do
  let challengeId ← label t.challengeId
  let outcome ← label (knownOutcome t.outcome)
  let success ← successNumber t.success
  let _ ← label (.int success)
  let columns ← (Packed.ofSnapshots t.states).mapError .pack
  unless t.states.isEmpty do
    s.options.compression.check.mapError .compression
  pure ⟨challengeId, outcome, success, if t.program.isNull then none else some t.program,
    t.initial.map LooseActor.toJson, columns⟩

/-- What a write comes to, and the store after it. -/
def write (s : Store) (t : LooseTrace) :
    Except WriteError (String × List String) × Store :=
  match s.warnings t with
  | .error e => (.error e, s)
  | .ok found =>
    let name := runName s.count
    if (s.entries.lookup name).isSome then (.error .nameTaken, s)
    else
      match s.entryOf t with
      | .error e => (.error e, { s with entries := s.entries ++ [(name, none)] })
      | .ok entry =>
        (.ok (name, found),
          { s with entries := s.entries ++ [(name, some entry)], count := s.count + 1 })

/-- The group that all runs lie in. -/
def group : List Char := "runs".toList

/-- The steps of a name, from the group of the runs on. A name may be a path, from that group or
from the root; at the root there is nothing but the group. -/
def stepsOf? (name : String) : Option (List (List Char)) :=
  let p := Path.ofText name
  if name = "" then none
  else if p.root = [] then some p.steps
  else
    match p.steps with
    | [] => some []
    | step :: rest => if step = group then some rest else none

/-- The entry under a name, if it was written to the end. -/
def find (s : Store) (name : String) : Except ReadBackError Entry :=
  match stepsOf? name with
  | none => .error (.notFound name)
  | some [] => .error .incomplete
  | some [step] =>
    match s.entries.lookup (String.ofList step) with
    | none => .error (.notFound name)
    | some none => .error .incomplete
    | some (some entry) => .ok entry
  | some _ => .error (.notFound name)

def readInitial : Option Json → Except ReadBackError (Option Actor)
  | none => .ok none
  | some v => ((Actor.ofJson v).map some).mapError .initial

def read (s : Store) (name : String) : Except ReadBackError (Trace Actor) := do
  let entry ← s.find name
  let initial ← readInitial entry.initial
  let states ← entry.columns.states.mapError .unpack
  pure ⟨.str entry.challengeId, initial, states, successOf entry.success, .str entry.outcome,
    entry.program.getD .null⟩

def trajectory (s : Store) (name : String) : Except ReadBackError (List Cell) :=
  (s.find name).map fun entry => entry.columns.trajectory

/-- The description of the world, or an empty one. -/
def worldConfig (s : Store) : Json := s.world.getD (.obj [])

/-- Puts a name into an ascending list. -/
def insertName (name : String) : List String → List String
  | [] => [name]
  | n :: ns => if name ≤ n then name :: n :: ns else n :: insertName name ns

/-- All names in ascending order. -/
def names (s : Store) : List String := (s.entries.map Prod.fst).foldr insertName []

def schemaVersion : String := "1.0.0"

def metadata (s : Store) (session : String) : Json :=
  .obj [("session_name", .str session), ("schema_version", .str schemaVersion),
    ("compression", s.options.compression.noted), ("total_runs", .nat s.count)]

end Store

end BlockGrid
