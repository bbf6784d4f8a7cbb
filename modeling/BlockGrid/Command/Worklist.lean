/-!
# BlockGrid.Command.Worklist

Loops over a list of what is still to be done. A round takes the first item off the list and may
put others in its place; the loop is over when the list is empty.

* `Worklist`   — what a round does. It sees one item, so the others wait untouched.
* `run`        — the loop. `run_append`: what comes first on the list is done first, and then the
  rest, as if nothing had been before it.
* `within`     — the loop, if it is over within some number of rounds. As many as the items cost
  together (`totalCost`) are enough (`within_eq`).
-/

namespace BlockGrid

/-- What some items cost together. -/
def totalCost {α : Type} (cost : α → Nat) : List α → Nat
  | [] => 0
  | a :: as => cost a + totalCost cost as

section Costs

variable {α : Type} (cost : α → Nat)

theorem totalCost_append (as bs : List α) :
    totalCost cost (as ++ bs) = totalCost cost as + totalCost cost bs := by
  induction as with
  | nil => rw [List.nil_append, totalCost, Nat.zero_add]
  | cons a as ih => rw [List.cons_append, totalCost, ih, totalCost, Nat.add_assoc]

theorem totalCost_reverse (as : List α) : totalCost cost as.reverse = totalCost cost as := by
  induction as with
  | nil => rfl
  | cons a as ih =>
    rw [List.reverse_cons, totalCost_append, ih]
    simp only [totalCost]
    omega

end Costs

/-- `α` is what there is to do, `β` what has come of it. What an item brings in costs less than the
item did. -/
structure Worklist (α β : Type) where
  round : α → β → List α × β
  cost : α → Nat
  cost_lt : ∀ a b, totalCost cost (round a b).1 < cost a

namespace Worklist

variable {α β : Type} (l : Worklist α β)

/-- A bound on the rounds that a list takes. -/
def rounds (as : List α) : Nat := totalCost l.cost as

theorem rounds_round (a : α) (as : List α) (b : β) :
    l.rounds ((l.round a b).1 ++ as) < l.rounds (a :: as) := by
  have hcost := l.cost_lt a b
  rw [rounds, rounds, totalCost_append, totalCost]
  exact Nat.add_lt_add_right hcost _

def run : List α → β → β
  | [], b => b
  | a :: as, b => run ((l.round a b).1 ++ as) (l.round a b).2
  termination_by as => l.rounds as
  decreasing_by exact l.rounds_round _ _ _

theorem run_nil (b : β) : l.run [] b = b := by
  rw [run]

theorem run_cons (a : α) (as : List α) (b : β) :
    l.run (a :: as) b = l.run ((l.round a b).1 ++ as) (l.round a b).2 := by
  rw [run]

theorem run_append (as bs : List α) (b : β) : l.run (as ++ bs) b = l.run bs (l.run as b) := by
  fun_induction run l as b with
  | case1 b => rfl
  | case2 a as b ih => rw [List.cons_append, run_cons, ← List.append_assoc, ih]

/-- The loop, given up after `n` rounds. -/
def within : Nat → List α → β → Option β
  | _, [], b => some b
  | 0, _ :: _, _ => none
  | n + 1, a :: as, b => within n ((l.round a b).1 ++ as) (l.round a b).2

theorem within_eq {n : Nat} {as : List α} (b : β) (h : l.rounds as ≤ n) :
    l.within n as b = some (l.run as b) := by
  induction n generalizing as b with
  | zero =>
    cases as with
    | nil => rw [within, run_nil]
    | cons a as => exact absurd (l.rounds_round a as b) (by omega)
  | succ n ih =>
    cases as with
    | nil => rw [within, run_nil]
    | cons a as =>
      have hless := l.rounds_round a as b
      rw [within, run_cons, ih]
      omega

end Worklist

end BlockGrid
