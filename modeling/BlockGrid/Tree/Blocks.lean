import BlockGrid.Command.Basic
import BlockGrid.Json.Basic

/-!
# BlockGrid.Tree.Blocks

A canonical program in the editor's form. What was not recognized keeps its reason only.
-/

namespace BlockGrid

mutual

def Command.toJson {ρ : Type} : Command ρ → Json
  | .act (.move d) => .obj [("cmd", .str "move"), ("value", .int d)]
  | .act (.turn s) => .obj [("cmd", .str "turn"), ("dir", .str s)]
  | .act (.unrecognized _ reason) => .obj [("cmd", .str "unrecognized"), ("reason", .str reason)]
  | .loop count body =>
    .obj [("cmd", .str "repeat"), ("times", .int count), ("body", .arr (Program.toJsonList body))]

def Program.toJsonList {ρ : Type} : List (Command ρ) → List Json
  | [] => []
  | c :: cs => c.toJson :: Program.toJsonList cs

end

end BlockGrid
