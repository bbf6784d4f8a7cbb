import BlockGrid.File.Path
import BlockGrid.Json.Reader

/-!
# BlockGrid.File.Folder

The files that can be reached from the working directory.

* `FileError`         — why a path leads nowhere.
* `Folder.walk`       — where the steps of a path lead, one after the other.
* `Folder.read`       — the content of a file.
* `Folder.addFolders` — a new folder, with the folders around it that are not there yet.
-/

namespace BlockGrid

/-- A number in place of a path is the handle of an open file, of which there is none. -/
inductive FileError where
  | notFound (path : String)
  | notDirectory (path : String)
  | isDirectory (path : String)
  | taken (path : String)
  | tooLong (path : String)
  | holdsZero
  | notPath (kind : String)
  | encode (e : EncodeError)
  | noHandle
  | negativeHandle
  deriving DecidableEq, Repr

def FileError.message : FileError → String
  | .notFound path => "[Errno 2] No such file or directory: " ++ quoted path
  | .notDirectory path => "[Errno 20] Not a directory: " ++ quoted path
  | .isDirectory path => "[Errno 21] Is a directory: " ++ quoted path
  | .taken path => "[Errno 17] File exists: " ++ quoted path
  | .tooLong path => "[Errno 36] File name too long: " ++ quoted path
  | .holdsZero => "embedded null byte"
  | .notPath kind => "expected str, bytes or os.PathLike object, not " ++ kind
  | .encode e => e.message
  | .noHandle => "[Errno 9] Bad file descriptor"
  | .negativeHandle => "negative file descriptor"

inductive DocumentError where
  | file (e : FileError)
  | notJson
  deriving DecidableEq, Repr

/-- Faults of JSON text are named, not described. -/
def DocumentError.message : DocumentError → String
  | .file e => e.message
  | .notJson => "JSONDecodeError"

/-- Files with their contents, and folders that are known even if no file lies in them. -/
structure Folder where
  files : List (Path × String)
  folders : List Path

inductive Occupant where
  | file (content : String)
  | folder

namespace Folder

/-- The working directory and the ones above it. -/
def leadsUp (p : Path) : Bool := p.steps.all (· = Path.upward)

/-- What lies at a resolved path. -/
def node? (f : Folder) (p : Path) : Option Occupant :=
  match f.files.lookup p with
  | some content => some (.file content)
  | none =>
    if leadsUp p || f.folders.contains p || f.folders.any p.isAbove
        || f.files.any fun e => p.isAbove e.1 then some .folder
    else none

/-- In bytes of UTF-8. -/
def longestStep : Nat := 255

/-- In bytes of UTF-8. -/
def longestText : Nat := 4095

def isLongStep (step : List Char) : Bool := longestStep < (String.ofList step).utf8ByteSize

/-- Texts that name no place at all, wherever they lead. -/
def checkText (path : String) : Except FileError Unit :=
  if path.contains '\x00' then .error .holdsZero
  else if longestText < path.utf8ByteSize then .error (.tooLong path)
  else .ok ()

/-- One step from a folder; the place it leads to need not be there. `path` is what errors show. -/
def stepFrom (f : Folder) (path : String) (here : Path) (step : List Char) :
    Except FileError Path :=
  match f.node? here with
  | none => .error (.notFound path)
  | some (.file _) => .error (.notDirectory path)
  | some .folder => if isLongStep step then .error (.tooLong path) else .ok (here.enter step)

def walk (f : Folder) (path : String) (here : Path) : List (List Char) → Except FileError Path
  | [] => .ok here
  | step :: rest => do
    let next ← f.stepFrom path here step
    walk f path next rest

/-- The resolved place of a path, and what is there. -/
def find (f : Folder) (path : String) : Except FileError (Path × Occupant) := do
  checkText path
  let p := Path.ofText path
  let here ← f.walk path p.base p.steps
  match f.node? here with
  | none => throw (.notFound path)
  | some n => pure (here, n)

def read (f : Folder) (path : String) : Except FileError String := do
  match ← f.find path with
  | (_, .folder) => throw (.isDirectory path)
  | (_, .file content) =>
    if Path.asksFolder path then throw (.notDirectory path)
    pure content

/-- The number of handles. -/
def handles : Int := Int.pow 2 31

/-- What is to be read need not be given as text. -/
def readNamed (f : Folder) : Json → Except FileError String
  | .str path => f.read path
  | .torn s h rest => .error (.encode (LooseText.refusal s h rest))
  | .int n =>
    if n < -handles ∨ handles ≤ n then .error (.notPath (Json.int n).kindName)
    else if n < 0 then .error .negativeHandle
    else .error .noHandle
  | .bool _ => .error .noHandle
  | v => .error (.notPath v.kindName)

def readJson (f : Folder) (path : Json) : Except DocumentError Json :=
  match f.readNamed path with
  | .error e => .error (.file e)
  | .ok content =>
    match Json.parse? content with
    | some v => .ok v
    | none => .error .notJson

def isFolder (f : Folder) (p : Path) : Bool :=
  match f.find p.text with
  | .ok (_, .folder) => true
  | _ => false

/-- A new folder in one that is there. -/
def addFolder (f : Folder) (p : Path) : Except FileError Folder := do
  checkText p.text
  let parent ← f.walk p.text p.base p.steps.dropLast
  match p.steps.getLast? with
  | none => throw (.taken p.text)
  | some step =>
    let here ← f.stepFrom p.text parent step
    if step = Path.upward ∨ (f.node? here).isSome then throw (.taken p.text)
    pure { f with folders := here :: f.folders }

/-- A folder that is there already is as good as a new one. -/
def provide (f : Folder) (p : Path) : Except FileError Folder :=
  match f.addFolder p with
  | .ok g => .ok g
  | .error e => if f.isFolder p then .ok f else .error e

/-- The folder after some steps, the last one first. The folder around it is added if it is not
found. -/
def addFrom (f : Folder) (root : List Char) : List (List Char) → Except FileError Folder
  | [] => f.provide ⟨root, []⟩
  | step :: above =>
    let p : Path := ⟨root, (step :: above).reverse⟩
    match f.addFolder p with
    | .error (.notFound _) => do
      let g ← addFrom f root above
      g.provide p
    | _ => f.provide p

def addFolders (f : Folder) (p : Path) : Except FileError Folder :=
  f.addFrom p.root p.steps.reverse

end Folder

end BlockGrid
