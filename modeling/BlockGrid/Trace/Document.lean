import BlockGrid.Trace.Store

/-!
# BlockGrid.Trace.Document

A store as one document, its columns side by side.
-/

namespace BlockGrid

namespace Packed

def toJson (p : Packed) : Json :=
  let column := fun (xs : List Int) => Json.arr (xs.map .int)
  let cells := fun (cs : List Cell) => Json.arr (cs.map Cell.toJson)
  .obj [("row", column p.row), ("col", column p.col), ("direction", column p.direction),
    ("step_count", column p.stepCount), ("body_length", column p.bodyLength),
    ("collected_length", column p.collectedLength), ("body_cells", cells p.bodyCells),
    ("collected_cells", cells p.collectedCells)]

end Packed

namespace Entry

def toJson (e : Entry) : Json :=
  .obj [("challenge_id", .str e.challengeId), ("outcome", .str e.outcome),
    ("success", .int e.success), ("program", e.program.getD .null),
    ("initial_state", e.initial.getD .null),
    ("states", e.columns.toJson)]

end Entry

namespace Store

def document (s : Store) (session : String) : Json :=
  .obj [("metadata", s.metadata session), ("world", s.worldConfig),
    ("runs", .obj (s.entries.map fun (name, e) => (name, Json.ofOption Entry.toJson e)))]

end Store

end BlockGrid
