import BlockGrid.File.Folder

/-!
# BlockGrid.Trace.Location

Which file the traces of a session are read from.

* `Location.choose` — the file itself, or the only one in a folder; of several the one with the
  usual name.
-/

namespace BlockGrid

inductive LocationError where
  | none (path : String)
  | several (path : String)
  | file (e : FileError)
  deriving DecidableEq, Repr

def LocationError.message : LocationError → String
  | .none path => "No HDF5 file found in " ++ path
  | .several path => "Multiple HDF5 files found in " ++ path ++ ". Please specify one directly."
  | .file e => e.message

namespace Location

def suffixes : List String := [".h5", ".hdf5"]

def isTraceName (name : List Char) : Bool :=
  suffixes.any fun s => s.toList.isSuffixOf name

def preferredName : List Char := "traces.h5".toList

/-- What is at a path. Nothing is, if a step leads nowhere, but a step that is too long is an
error. -/
def occupant? (folder : Folder) (path : String) :
    Except LocationError (Option (Path × Occupant)) :=
  match folder.find path with
  | .ok found => .ok (some found)
  | .error (.tooLong path) => .error (.file (.tooLong path))
  | .error _ => .ok Option.none

/-- The names of the files that lie in a folder itself. -/
def namesIn (folder : Folder) (here : Path) : List (List Char) :=
  (folder.files.filter fun e => decide (e.1.steps ≠ [] ∧ e.1.up = here)).map fun e => e.1.name

def chooseIn (folder : Folder) (p here : Path) : Except LocationError Path :=
  match (namesIn folder here).filter isTraceName with
  | [] => .error (.none p.text)
  | [name] => .ok (p.enter name)
  | names =>
    if names.contains preferredName then .ok (p.enter preferredName) else .error (.several p.text)

def choose (folder : Folder) (path : String) : Except LocationError Path := do
  let p := Path.ofText path
  match ← occupant? folder p.text with
  | some (_, .file _) =>
    if suffixes.contains p.suffix then pure p else throw (.none p.text)
  | some (here, .folder) => chooseIn folder p here
  | Option.none => throw (.none p.text)

end Location

end BlockGrid
