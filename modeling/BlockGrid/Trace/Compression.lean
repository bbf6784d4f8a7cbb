import BlockGrid.Tree.Text

/-!
# BlockGrid.Trace.Compression

How columns are compressed: by the name of a method, or by a level alone. A column without items is
never compressed.

* `CompressionError`  — what cannot be compressed with.
* `Compression.check` — the first fault of a choice.
-/

namespace BlockGrid

inductive CompressionError where
  | unavailable (name : String)
  | unknownNumber (n : Int)
  | badLevel (shown : String)
  deriving DecidableEq, Repr

def CompressionError.message : CompressionError → String
  | .unavailable name => "Compression filter \"" ++ name ++ "\" is unavailable"
  | .unknownNumber n => "Unknown compression filter number: " ++ toString n
  | .badLevel shown => "GZIP setting must be an integer from 0-9, not " ++ shown

/-- The level counts for one method only. -/
structure Compression where
  method : Json
  level : Json

namespace Compression

def levelled : String := "gzip"

def methods : List String := [levelled, "lzf", "szip"]

def default : Compression := ⟨.str levelled, .int 4⟩

/-- A number from zero to nine, or none. -/
def isLevel : Json → Bool
  | .null => true
  | .int n => 0 ≤ n ∧ n < 10
  | .bool _ => true
  | .float x => (List.range 10).any fun n => x.extended.same (.ofInt n)
  | _ => false

def checkNamed (name : String) (level : Json) : Except CompressionError Unit :=
  if !methods.contains name then .error (.unavailable name)
  else if name = levelled ∧ !isLevel level then .error (.badLevel level.shown)
  else .ok ()

/-- A method that counts as false is none. -/
def check (c : Compression) : Except CompressionError Unit :=
  if !c.method.isTruthy then .ok ()
  else
    match c.method with
    | .str name => checkNamed name c.level
    | .int n => if isLevel (.int n) then .ok () else .error (.unknownNumber n)
    | v => if isLevel v then .ok () else .error (.unavailable v.spoken)

/-- The method as it is noted down. -/
def noted (c : Compression) : Json := if c.method.isTruthy then c.method else .str "none"

end Compression

end BlockGrid
