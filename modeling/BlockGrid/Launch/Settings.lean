import BlockGrid.File.Folder
import BlockGrid.Launch.Merge
import BlockGrid.Run.Pacing
import BlockGrid.Tree.Text

/-!
# BlockGrid.Launch.Settings

What a launch is asked to do: built-in values, under those of a settings file, under those of the
command line.

* `Options`            — a value for each option of the command line, null where none was given.
* `Settings`           — a value for every setting.
* `Settings.ofOptions` — the settings of options. Names that are unknown and delays that are no
  delays are refused.
-/

namespace BlockGrid

structure Options where
  catalog : Json
  challenge : Json
  program : Json
  config : Json
  fast : Json
  moveDelay : Json
  turnDelay : Json
  ignoreBlockLimit : Json
  exportDir : Json
  quiet : Json
  logLevel : Json
  deriving Inhabited

/-- No option given. -/
def Options.none : Options :=
  ⟨.null, .null, .null, .null, .bool false, .null, .null, .bool false, .null, .bool false, .null⟩

structure Settings where
  catalogPath : String
  challengeId : Json
  programPath : String
  pacing : Pacing
  exportDir : Json
  runName : Json
  logToConsole : Json
  logLevel : Json
  enforceBlockLimit : Json

inductive SettingsError where
  | document (e : DocumentError)
  | merge (e : MergeError)
  | notAssignable (kind : String)
  | indexedByName
  | pacing (e : PacingError)
  | name (e : NameError)
  | delayNotOrdered (kind : String)
  | negativeDelay
  deriving DecidableEq, Repr

def SettingsError.message : SettingsError → String
  | .document e => e.message
  | .merge e => e.message
  | .notAssignable kind => "'" ++ kind ++ "' object does not support item assignment"
  | .indexedByName => "list indices must be integers or slices, not str"
  | .pacing e => e.message
  | .name e => e.message "RunConfig.__init__()"
  | .delayNotOrdered kind =>
    "'<' not supported between instances of '" ++ kind ++ "' and 'int'"
  | .negativeDelay => "pacing delays must be non-negative"

namespace Settings

/-- The built-in value of every setting, by name. -/
def defaults : Entries :=
  [("catalog_path", .null), ("challenge_id", .null), ("program_path", .null),
    ("pacing", Pacing.default.toJson), ("export_dir", .null), ("run_name", .str "run"),
    ("log_to_console", .bool true), ("log_level", .str "WARNING"),
    ("enforce_block_limit", .bool true)]

/-- Entries with those of the settings file over them, if there is one. -/
def withFile (folder : Folder) (config : Json) (base : Entries) : Except SettingsError Entries := do
  if config.isTruthy then
    let file ← (folder.readJson config).mapError .document
    let given ← file.layer.mapError .merge
    pure (Json.mergeEntries base given)
  else pure base

def putIf (given : Bool) (name : String) (v : Json) (entries : Entries) : Entries :=
  if given then Entries.put name v entries else entries

/-- A delay of the command line goes into the pacing, whatever that is by now. -/
def putDelay (name : String) (delay pacing : Json) : Except SettingsError Json :=
  if delay.isNull then .ok pacing
  else
    match pacing with
    | .obj entries => .ok (.obj (Entries.put name delay entries))
    | .arr _ => .error .indexedByName
    | v => .error (.notAssignable v.kindName)

def pacingEntry (entries : Entries) : Json := (Entries.get? "pacing" entries).getD .null

def withOptions (o : Options) (entries : Entries) : Except SettingsError Entries := do
  let entries := Entries.put "catalog_path" (.str o.catalog.spoken) entries
  let entries := Entries.put "challenge_id" o.challenge entries
  let entries := Entries.put "program_path" (.str o.program.spoken) entries
  let entries := putIf o.fast.isTruthy "pacing" Pacing.immediate.toJson entries
  let pacing ← putDelay "move_delay" o.moveDelay (pacingEntry entries)
  let pacing ← putDelay "turn_delay" o.turnDelay pacing
  let entries := Entries.put "pacing" pacing entries
  let entries := putIf o.exportDir.isTruthy "export_dir" (.str o.exportDir.spoken) entries
  let entries := putIf o.quiet.isTruthy "log_to_console" (.bool false) entries
  let entries := putIf o.logLevel.isTruthy "log_level" o.logLevel entries
  pure (putIf o.ignoreBlockLimit.isTruthy "enforce_block_limit" (.bool false) entries)

def isNegative (delay : Json) : Except SettingsError Bool :=
  match delay.number? with
  | some x => .ok (x.lt (.ofInt 0))
  | none => .error (.delayNotOrdered delay.kindName)

/-- The second delay is looked at only if the first one is none below zero. -/
def checkPacing (p : Pacing) : Except SettingsError Unit := do
  if ← isNegative p.moveDelay then throw .negativeDelay
  if ← isNegative p.turnDelay then throw .negativeDelay

/-- The name that the settings themselves go by. -/
def taken : String := "self"

def ofEntries (entries : Entries) : Except SettingsError Settings := do
  let pacing ← (Pacing.ofJson (pacingEntry entries)).mapError .pacing
  (entries.checkNames taken (defaults.map Prod.fst)).mapError .name
  checkPacing pacing
  let value := fun name => (Entries.get? name entries).getD .null
  pure ⟨(value "catalog_path").spoken, value "challenge_id", (value "program_path").spoken, pacing,
    value "export_dir", value "run_name", value "log_to_console", value "log_level",
    value "enforce_block_limit"⟩

def ofOptions (folder : Folder) (o : Options) : Except SettingsError Settings := do
  let entries ← withFile folder o.config defaults
  let entries ← withOptions o entries
  ofEntries entries

def toJson (s : Settings) : Json :=
  .obj [("catalog_path", .str s.catalogPath), ("challenge_id", s.challengeId),
    ("program_path", .str s.programPath), ("pacing", s.pacing.toJson), ("export_dir", s.exportDir),
    ("run_name", s.runName), ("log_to_console", s.logToConsole), ("log_level", s.logLevel),
    ("enforce_block_limit", s.enforceBlockLimit)]

end Settings

end BlockGrid
