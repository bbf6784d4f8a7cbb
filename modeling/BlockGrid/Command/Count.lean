import BlockGrid.Command.Basic
import BlockGrid.Command.Worklist

/-!
# BlockGrid.Command.Count

Sizes of a program, found without expanding it.

* `countEffects` — unit steps and turns when every loop is gone round to the end.
* `countBlocks`  — commands, loop bodies included once.
-/

namespace BlockGrid

namespace Count

variable {ρ : Type}

def weight : Action ρ → Int
  | .move d => d
  | .turn _ => 1
  | .unrecognized _ _ => 0

/-- A program part way through: what is left of it, the sum so far, and the factor on the whole. -/
structure Tally (ρ : Type) where
  rest : Program ρ
  sum : Int
  times : Int

def Tally.work (t : Tally ρ) : Nat := 2 * Program.size t.rest + 1

def tallyWork : List (Tally ρ) → Nat
  | [] => 0
  | t :: ts => t.work + tallyWork ts

/-- The innermost program first. A finished one adds its product to the one around it. -/
def effects : Tally ρ → List (Tally ρ) → Int
  | ⟨[], sum, times⟩, [] => sum * times
  | ⟨[], sum, times⟩, ⟨rest, outer, outerTimes⟩ :: ts =>
    effects ⟨rest, outer + sum * times, outerTimes⟩ ts
  | ⟨.act a :: rest, sum, times⟩, ts => effects ⟨rest, sum + weight a, times⟩ ts
  | ⟨.loop count body :: rest, sum, times⟩, ts =>
    effects ⟨body, 0, count⟩ (⟨rest, sum, times⟩ :: ts)
  termination_by t ts => t.work + tallyWork ts
  decreasing_by
    all_goals simp only [Tally.work, tallyWork, Program.size, Command.size]
    all_goals omega

theorem totalCost_size (p : Program ρ) : totalCost Command.size p = Program.size p := by
  induction p with
  | nil => rfl
  | cons c p ih => rw [totalCost, ih, Program.size]

/-- Commands waiting to be counted, the last one first. The body of a loop joins them when its loop is
counted. -/
def blocks : Worklist (Command ρ) Nat where
  round
    | .act _, total => ([], total + 1)
    | .loop _ body, total => (body.reverse, total + 1)
  cost := Command.size
  cost_lt c total := by
    cases c with
    | act a => exact Nat.one_pos
    | loop count body =>
      rw [totalCost_reverse, totalCost_size, Command.size]
      omega

end Count

def countEffects {ρ : Type} (p : Program ρ) : Int := Count.effects ⟨p, 0, 1⟩ []

def countBlocks {ρ : Type} (p : Program ρ) : Nat := Count.blocks.run p.reverse 0

end BlockGrid
