import BlockGrid.Proofs.Text.Spelling
import BlockGrid.Proofs.Trace.Columns
import BlockGrid.Trace.Store

/-!
# BlockGrid.Proofs.Grid.Travel

States are read back from the form in which they travel, with the facing in lower case; with a known
facing they come back as they are.
-/

namespace BlockGrid

namespace Actor

variable {a : Actor}

theorem cellOf_toJson (c : Cell) : cellOf c.toJson = .ok c := rfl

theorem cellsOf_toJson (cells : List Cell) : cellsOf (.arr (cells.map Cell.toJson)) = .ok cells := by
  cases cells with
  | nil => rfl
  | cons c cs =>
    show ((c :: cs).map Cell.toJson).mapM cellOf = _
    exact mapM_map_eq_ok fun d _ => cellOf_toJson d

theorem fieldsOf_toJson (a : Actor) (s direction : String) :
    fieldsOf [("row", .int a.row), ("col", .int a.col), ("direction", .str s),
      ("body", .arr (a.body.map Cell.toJson)),
      ("collectedStars", .arr (a.collected.map Cell.toJson)),
      ("stepCount", .int a.stepCount)] direction = .ok { a with direction := direction } := by
  show (do
    let body ← cellsOf (.arr (a.body.map Cell.toJson))
    let collected ← cellsOf (.arr (a.collected.map Cell.toJson))
    pure (⟨a.row, a.col, direction, body, collected, a.stepCount⟩ : Actor)) = _
  rw [cellsOf_toJson, cellsOf_toJson]
  rfl

/-- The state with its facing in lower case. -/
def lowered (a : Actor) : Actor := { a with direction := lowercase a.direction }

/-- What is read back of any state: nothing when the facing is unknown in lower case too. -/
theorem ofJson_toJson_eq (a : Actor) : ofJson a.toJson =
    if Direction.isKnown (lowercase a.direction) then .ok a.lowered
    else .error (.unknownDirection (lowercase a.direction)) := by
  have hfacing : either [("row", .int a.row), ("col", .int a.col), ("direction", .str a.direction),
      ("body", .arr (a.body.map Cell.toJson)),
      ("collectedStars", .arr (a.collected.map Cell.toJson)),
      ("stepCount", .int a.stepCount)] "direction" "dir" (.str "right") = .str a.direction := rfl
  rw [toJson, ofJson, ofEntries, hfacing]
  show (if Direction.isKnown (lowercase a.direction) then _ else _) = _
  rw [fieldsOf_toJson]
  rfl

theorem lowercase_name (d : Direction) : lowercase d.name = d.name := by
  cases d <;> exact lowercase_word (by decide)

theorem lowered_of_isKnown (h : Direction.isKnown a.direction = true) : a.lowered = a := by
  obtain ⟨d, hd⟩ := Direction.exists_name_of_isKnown h
  have hlower : lowercase a.direction = a.direction := by rw [← hd, lowercase_name]
  rw [lowered, hlower]

theorem isKnown_of_lowered (h : a.lowered = a) :
    Direction.isKnown a.direction = Direction.isKnown (lowercase a.direction) := by
  have hdirection : lowercase a.direction = a.direction := congrArg Actor.direction h
  rw [hdirection]

theorem ofJson_toJson (h : Direction.isKnown a.direction = true) : ofJson a.toJson = .ok a := by
  have hlowered : a.lowered = a := lowered_of_isKnown h
  rw [ofJson_toJson_eq, hlowered, if_pos (isKnown_of_lowered hlowered ▸ h)]

/-- Loosely held, a state travels as it does otherwise. -/
theorem toJson_loose (a : Actor) : (LooseActor.ofActor a).toJson = a.toJson := by
  have hcells : ∀ cells : List Cell,
      (cells.map LooseCell.ofCell).map LooseCell.toJson = cells.map Cell.toJson := by
    intro cells
    rw [List.map_map]
    rfl
  rw [LooseActor.toJson, LooseActor.ofActor, toJson, hcells, hcells]

end Actor

end BlockGrid
