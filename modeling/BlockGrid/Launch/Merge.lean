import BlockGrid.Json.Basic

/-!
# BlockGrid.Launch.Merge

Settings laid over settings: objects under one name are merged, any other value takes the place of
what was there. Names keep their order, new ones follow.

* `Json.merge`   — the second value over the first, whatever they are.
* `Json.layOver` — the same for whole settings, which have to be objects.
-/

namespace BlockGrid

inductive MergeError where
  | noAttribute (kind name : String)
  | indexedByName
  deriving DecidableEq, Repr

def MergeError.message : MergeError → String
  | .noAttribute kind name => "'" ++ kind ++ "' object has no attribute '" ++ name ++ "'"
  | .indexedByName => "list indices must be integers or slices, not str"

namespace Json

mutual

/-- The second value over the first. -/
def merge (base : Json) : Json → Json
  | .obj es =>
    match base with
    | .obj bs => .obj (mergeEntries bs es)
    | _ => .obj es
  | v => v

def mergeEntries (bs : Entries) : List (String × Json) → Entries
  | [] => bs
  | (k, v) :: rest =>
    let merged := match Entries.get? k bs with
      | some w => merge w v
      | none => v
    mergeEntries (Entries.put k merged bs) rest

end

/-- What is laid on top of settings has to be an object. -/
def layer : Json → Except MergeError Entries
  | .obj es => .ok es
  | v => .error (.noAttribute v.kindName "items")

/-- An array can take no entry; one that holds the name is taken for settings that have it. -/
def layOverArray (items : List Json) : Entries → Except MergeError Json
  | [] => .ok (.arr items)
  | (name, _) :: _ =>
    .error (if items.any (same (.str name)) then .noAttribute (Json.arr items).kindName "get"
      else .indexedByName)

/-- The first value is looked at before the second one. -/
def layOver (base top : Json) : Except MergeError Json := do
  match base with
  | .obj bs => pure (.obj (mergeEntries bs (← layer top)))
  | .arr items => layOverArray items (← layer top)
  | v => throw (.noAttribute v.kindName "copy")

end Json

end BlockGrid
