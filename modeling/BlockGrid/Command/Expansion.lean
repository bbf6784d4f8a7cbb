import BlockGrid.Command.Basic

/-!
# BlockGrid.Command.Expansion

What a program means: the actions that take effect, in order. A loop stands for as many copies of
its body as its count says, a move for as many unit steps as its distance says.
-/

namespace BlockGrid

mutual

def Command.expand {ρ : Type} : Command ρ → List (Action ρ)
  | .act a => List.replicate a.repeats a
  | .loop count body => (List.replicate count.toNat (Program.expand body)).flatten

def Program.expand {ρ : Type} : List (Command ρ) → List (Action ρ)
  | [] => []
  | c :: cs => c.expand ++ Program.expand cs

end

end BlockGrid
