import BlockGrid.Json.Basic

/-!
# BlockGrid.Json.Names

Entries that are handed over as named arguments.

* `NameError`         — a name that is not known, or one that is taken already.
* `Entries.checkNames` — the first such name, in the order of the entries.
-/

namespace BlockGrid

inductive NameError where
  | unexpected (name : String)
  | repeated (name : String)
  deriving DecidableEq, Repr

/-- Every message starts with what the arguments were meant for. -/
def NameError.message (receiver : String) : NameError → String
  | .unexpected name => receiver ++ " got an unexpected keyword argument '" ++ name ++ "'"
  | .repeated name => receiver ++ " got multiple values for argument '" ++ name ++ "'"

namespace Entries

/-- `taken` is the name that has its value before any entry is looked at. -/
def checkNames (taken : String) (known : List String) : Entries → Except NameError Unit
  | [] => .ok ()
  | (name, _) :: rest =>
    if name = taken then .error (.repeated name)
    else if known.contains name then checkNames taken known rest
    else .error (.unexpected name)

end Entries

end BlockGrid
