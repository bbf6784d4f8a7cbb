import BlockGrid.Challenge.Descriptor

/-!
# BlockGrid.Challenge.Catalog

Challenges of one document, found by their ids.

* `Catalog`        — challenges in the order of the document, no id twice.
* `Catalog.ofJson` — the catalog of a document; its first fault ends the reading.
* `get`            — the challenge under an id.
* `build`          — its board.
-/

namespace BlockGrid

inductive CatalogError where
  | notCatalog
  | invalid (index : Nat) (issues : List Issue)
  | duplicate (id : LooseText)
  deriving DecidableEq, Repr

/-- Every message starts with the document's path. -/
def CatalogError.message (path : String) : CatalogError → String
  | .notCatalog => path ++ ": expected a top-level 'challenges' list"
  | .invalid index issues =>
    path ++ ": challenge #" ++ toString index ++ " is invalid: " ++ issueSummary issues
  | .duplicate id => path ++ ": duplicate challenge id " ++ id.quoted

structure Catalog where
  challenges : List Challenge

structure UnknownChallenge where
  id : LooseText
  available : List LooseText
  deriving DecidableEq, Repr

def UnknownChallenge.message (e : UnknownChallenge) : LooseText :=
  "Unknown challenge: " ++ e.id ++ ". Available: " ++ (Json.arr (e.available.map .ofText)).shown

/-- Why there is no board under an id. -/
inductive BuildError where
  | unknown (e : UnknownChallenge)
  | layout (e : LayoutError)
  deriving DecidableEq, Repr

namespace Catalog

def size (c : Catalog) : Nat := c.challenges.length

def ids (c : Catalog) : List LooseText := c.challenges.map Challenge.id

def contains (c : Catalog) (id : LooseText) : Bool := c.ids.contains id

def get? (c : Catalog) (id : LooseText) : Option Challenge := c.challenges.find? fun d => d.id == id

def get (c : Catalog) (id : LooseText) : Except UnknownChallenge Challenge :=
  match c.get? id with
  | some d => .ok d
  | none => .error ⟨id, c.ids⟩

def build (c : Catalog) (id : LooseText) : Except BuildError World := do
  let d ← (c.get id).mapError .unknown
  d.world.mapError .layout

/-- Entries from position `i` on, after the challenges already taken in. -/
def load (strict : Bool) (taken : Catalog) (i : Nat) : List Json → Except CatalogError Catalog
  | [] => .ok taken
  | v :: vs =>
    match Challenge.validate strict v with
    | .error issues => .error (.invalid i issues)
    | .ok d =>
      if taken.contains d.id then .error (.duplicate d.id)
      else load strict ⟨taken.challenges ++ [d]⟩ (i + 1) vs

def ofJson (strict : Bool) (document : Json) : Except CatalogError Catalog :=
  match document.get? "challenges" with
  | some (.arr entries) => load strict ⟨[]⟩ 0 entries
  | _ => .error .notCatalog

end Catalog

end BlockGrid
