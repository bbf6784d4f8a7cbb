import BlockGrid.Launch.Settings
import BlockGrid.Trace.Store

/-!
# BlockGrid.Launch.Archive

The one run of a launch, stored with its world.

* `Archive`       — the store, and where it is to be kept.
* `Archive.ofRun` — the archive of a run, as the settings ask for it.
-/

namespace BlockGrid

inductive ArchiveError where
  | file (e : FileError)
  | encode (e : EncodeError)
  | session (e : LabelError)
  | write (e : WriteError)
  deriving DecidableEq, Repr

def ArchiveError.message : ArchiveError → String
  | .file e => e.message
  | .encode e => e.message
  | .session e => e.message
  | .write e => e.message

/-- The name of the session and its folder. -/
structure Archive where
  session : String
  place : Path
  store : Store

namespace Archive

def options : StoreOptions := ⟨true, .default⟩

/-- The folder for all sessions. -/
def base (v : Json) : Except ArchiveError Path :=
  match v.text? with
  | some t => (t.encode.mapError .encode).map Path.ofText
  | none => .error (.file (.notPath v.kindName))

/-- A session's folder is called by its name, followed by the time. It is there before the name is
written down. Names of folders are kept in UTF-8. -/
def ofRun (folder : Folder) (stamp : String) (s : Settings) (w : World) (t : Trace Actor) :
    Except ArchiveError Archive := do
  let base ← base s.exportDir
  let session ← s.runName.printed.encode.mapError .encode
  let place := base.join (Path.ofText (session ++ "_" ++ stamp))
  let _ ← (folder.addFolders place).mapError .file
  s.runName.checkLabel.mapError .session
  match ((Store.empty options).saveWorld w.config).write t.loose with
  | (.ok _, store) => pure ⟨session, place, store⟩
  | (.error e, _) => throw (.write e)

/-- Sessions are looked for in the folders of the working directory. -/
def isListed (a : Archive) : Bool :=
  match a.place.resolved with
  | ⟨[], [around, _]⟩ => around ≠ Path.upward
  | _ => false

end Archive

end BlockGrid
