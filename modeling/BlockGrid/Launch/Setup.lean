import BlockGrid.Challenge.Catalog
import BlockGrid.Launch.Settings
import BlockGrid.Tree.Program

/-!
# BlockGrid.Launch.Setup

Everything a run needs, found by the settings: the challenge, its board and the program.

* `Catalog.read`    — the catalog in a file.
* `Setup.ofCatalog` — the setup, once the catalog is there.
-/

namespace BlockGrid

structure Setup where
  challenge : Challenge
  world : World
  program : Program Tree

inductive SetupError where
  | document (e : DocumentError)
  | catalog (path : String) (e : CatalogError)
  | unknown (e : UnknownChallenge)
  | noKey (kind : String)
  | layout (e : LayoutError)
  | program (e : ProgramError)
  deriving DecidableEq, Repr

def SetupError.message : SetupError → String
  | .document e => e.message
  | .catalog path e => e.message path
  | .unknown e => e.message.quoted
  | .noKey kind => "unhashable type: '" ++ kind ++ "'"
  | .layout e => e.message
  | .program e => e.message

/-- Whether an error belongs to what was asked for. The others are paths that are no paths, boards
and numerals too large to be looked at, and ids that are none. -/
def SetupError.isAnswered : SetupError → Bool
  | .document (.file .holdsZero) => false
  | .noKey _ => false
  | .layout e => !e.isTooLarge
  | .program (.badNumeral _) => false
  | _ => true

def Catalog.read (strict : Bool) (folder : Folder) (path : String) : Except SetupError Catalog := do
  let document ← (folder.readJson (.str path)).mapError .document
  (Catalog.ofJson strict document).mapError (.catalog path)

/-- All ids are texts; lists and objects cannot even be looked for. -/
def Catalog.find (c : Catalog) : Json → Except SetupError Challenge
  | .str id => (c.get id).mapError .unknown
  | .torn s h rest => (c.get (.torn s h rest)).mapError .unknown
  | v => .error (if v.hasHash then .unknown ⟨v.spoken, c.ids⟩ else .noKey v.kindName)

/-- The program is read last. -/
def Setup.ofCatalog (folder : Folder) (s : Settings) (c : Catalog) : Except SetupError Setup := do
  let challenge ← c.find s.challengeId
  let world ← challenge.world.mapError .layout
  let commands ← (folder.readJson (.str s.programPath)).mapError .document
  let program ← (Program.ofTree (Tree.ofJson commands)).mapError .program
  pure ⟨challenge, world, program⟩

end BlockGrid
