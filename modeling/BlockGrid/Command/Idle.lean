import BlockGrid.Command.Basic
import BlockGrid.Command.Worklist

/-!
# BlockGrid.Command.Idle

Loops that never take effect, found before a program is walked. Going round such a loop would
spend its whole count without handing out a single action.

* `Named`           — a command whose loops have names.
* `Idle.search`     — the walk that finds the idle loops, with an explicit stack of visits: a loop is
  visited before the loops in its body and once more after them.
* `Numbering.build` — a program put together anew, its loops numbered, with an explicit stack too.
* `markAll`         — the marking: the loops get numbers for names, and then their verdicts.
-/

namespace BlockGrid

/-- A name tells one loop from the others. The same loop may stand in more places than one. -/
inductive Named (ρ : Type) where
  | act (a : Action ρ)
  | loop (name : Nat) (count : Int) (body : List (Named ρ))

mutual

/-- How many loops there are in the command, itself included. -/
def Named.loops {ρ : Type} : Named ρ → Nat
  | .act _ => 0
  | .loop _ _ body => 1 + Named.loopsAll body

def Named.loopsAll {ρ : Type} : List (Named ρ) → Nat
  | [] => 0
  | m :: ms => m.loops + Named.loopsAll ms

end

namespace Idle

variable {ρ : Type}

/-- A loop that is to be visited, for the first time or `again`. -/
structure Visit (ρ : Type) where
  name : Nat
  count : Int
  body : List (Named ρ)
  again : Bool

def Visit.cost (v : Visit ρ) : Nat := if v.again then 1 else 2 + 2 * Named.loopsAll v.body

/-- A first visit to each loop among some commands. -/
def visits (q : List (Named ρ)) : List (Visit ρ) :=
  q.filterMap fun
    | .act _ => none
    | .loop name count body => some ⟨name, count, body, false⟩

theorem totalCost_visits (q : List (Named ρ)) :
    totalCost Visit.cost (visits q) = 2 * Named.loopsAll q := by
  induction q with
  | nil => rfl
  | cons m q ih =>
    cases m with
    | act a =>
      rw [Named.loopsAll, Named.loops, Nat.zero_add, ← ih]
      rfl
    | loop name count body =>
      show (2 + 2 * Named.loopsAll body) + totalCost Visit.cost (visits q) = _
      rw [ih, Named.loopsAll, Named.loops]
      omega

/-- A loop that has been found idle. Actions never count as idle. -/
def isFound (found : List Nat) : Named ρ → Bool
  | .act _ => false
  | .loop name _ _ => found.contains name

/-- A loop is idle if it has no rounds, or nothing but idle loops in it. -/
def close (v : Visit ρ) (found : List Nat) : List Nat :=
  if v.count == 0 || v.body.all (isFound found) then v.name :: found else found

/-- The last loop of a body is on top of the stack, and below the first is the loop around them. -/
def search : Worklist (Visit ρ) (List Nat) where
  round v found :=
    if v.again then ([], close v found)
    else ((visits v.body).reverse ++ [{ v with again := true }], found)
  cost := Visit.cost
  cost_lt v found := by
    cases hv : v.again with
    | true => simp [totalCost, Visit.cost, hv]
    | false =>
      simp only [Bool.false_eq_true, if_false, totalCost_append, totalCost_reverse,
        totalCost_visits, totalCost, Visit.cost, hv, if_true]
      omega

/-- The names of the idle loops. -/
def find (q : List (Named ρ)) : List Nat := search.run (visits q).reverse []

end Idle

namespace Numbering

variable {ρ γ : Type}

/-- `leave name count width` closes a loop over the last `width` commands. -/
inductive Task (ρ : Type) where
  | enter (c : Command ρ)
  | leave (name : Nat) (count : Int) (width : Nat)

def Task.cost : Task ρ → Nat
  | .enter c => 2 * c.size
  | .leave _ _ _ => 1

/-- Every command of a program is to be entered, in order. -/
def enterAll (p : Program ρ) : List (Task ρ) := p.map .enter

theorem totalCost_enterAll (p : Program ρ) :
    totalCost Task.cost (enterAll p) = 2 * Program.size p := by
  induction p with
  | nil => rfl
  | cons c p ih =>
    show 2 * c.size + totalCost Task.cost (enterAll p) = _
    rw [ih, Program.size, Nat.mul_add]

/-- Beside the next number stands what has been put together, last first. -/
def assembly (act : Action ρ → γ) (loop : Nat → Int → List γ → γ) :
    Worklist (Task ρ) (Nat × List γ) where
  round
    | .enter (.act a), (next, back) => ([], next, act a :: back)
    | .enter (.loop count body), (next, back) =>
      (enterAll body ++ [.leave next count body.length], next + 1, back)
    | .leave name count width, (next, back) =>
      ([], next, loop name count (back.take width).reverse :: back.drop width)
  cost := Task.cost
  cost_lt t b := by
    obtain (a | ⟨count, body⟩) | ⟨name, count, width⟩ := t
    · exact Nat.two_pos
    · have hbody := totalCost_enterAll body
      simp only [totalCost_append, hbody, totalCost, Task.cost, Command.size]
      omega
    · exact Nat.one_pos

def build (act : Action ρ → γ) (loop : Nat → Int → List γ → γ) (p : Program ρ) : List γ :=
  ((assembly act loop).run (enterAll p) (0, [])).2.reverse

end Numbering

inductive Marked (ρ : Type) where
  | act (a : Action ρ)
  | loop (idle : Bool) (count : Int) (body : List (Marked ρ))

/-- An idle loop; actions never count as idle. -/
def Marked.isIdle {ρ : Type} : Marked ρ → Bool
  | .act _ => false
  | .loop idle _ _ => idle

/-- The idle loops are found first. -/
def markAll {ρ : Type} (p : Program ρ) : List (Marked ρ) :=
  let found := Idle.find (Numbering.build .act .loop p)
  Numbering.build .act (fun name => .loop (found.contains name)) p

end BlockGrid
