import BlockGrid.Command.Count

/-!
# BlockGrid.Proofs.Command.Count

The two counts of a program, by recursion over its commands.

* `Program.weight`  — unit steps and turns, those of a body as often as its count says.
* `effects_eq`      — what is left of a tally adds its weight to the sum; `countEffects_eq`.
* `Count.within`    — the sum, if it is given within some number of moves. As many as the size of
  the program asks for are enough (`within_of_work_le`), however large the counts are.
* `run_blocks`      — what waits to be counted adds its size to the total; `countBlocks_eq`, and
  `countBlocks_within` as many rounds as that.
-/

namespace BlockGrid

variable {ρ : Type}

mutual

def Command.weight : Command ρ → Int
  | .act a => Count.weight a
  | .loop count body => Program.weight body * count

def Program.weight : List (Command ρ) → Int
  | [] => 0
  | c :: cs => c.weight + Program.weight cs

end

namespace Count

/-- The levels around are untouched until the innermost one is finished. -/
theorem effects_eq (p : Program ρ) (sum times : Int) (ts : List (Tally ρ)) :
    effects ⟨p, sum, times⟩ ts = effects ⟨[], sum + Program.weight p, times⟩ ts := by
  -- A body is counted with one more level around it, so the levels are general in the induction.
  induction hn : Program.size p using Nat.strongRecOn generalizing p sum times ts with
  | ind n ih =>
    subst hn
    cases p with
    | nil => rw [Program.weight, Int.add_zero]
    | cons c p =>
      have hpos := c.size_pos
      have hrest := fun sum ts => ih (Program.size p) (by simp only [Program.size]; omega)
        p sum times ts rfl
      cases c with
      | act a => rw [effects, hrest, Program.weight, Command.weight, Int.add_assoc]
      | loop count body =>
        have hbody := ih (Program.size body) (by simp only [Program.size, Command.size]; omega)
          body 0 count (⟨p, sum, times⟩ :: ts) rfl
        rw [effects, hbody, effects, hrest, Program.weight, Command.weight, Int.zero_add,
          Int.add_assoc]

/-- An action is counted, a level is opened or closed, or the sum is given. -/
def move : Tally ρ → List (Tally ρ) → Int ⊕ Tally ρ × List (Tally ρ)
  | ⟨[], sum, times⟩, [] => .inl (sum * times)
  | ⟨[], sum, times⟩, ⟨rest, outer, outerTimes⟩ :: ts =>
    .inr (⟨rest, outer + sum * times, outerTimes⟩, ts)
  | ⟨.act a :: rest, sum, times⟩, ts => .inr (⟨rest, sum + weight a, times⟩, ts)
  | ⟨.loop count body :: rest, sum, times⟩, ts =>
    .inr (⟨body, 0, count⟩, ⟨rest, sum, times⟩ :: ts)

/-- The sum, if it is given within `n` moves. -/
def within : Nat → Tally ρ → List (Tally ρ) → Option Int
  | 0, _, _ => none
  | n + 1, t, ts =>
    match move t ts with
    | .inl total => some total
    | .inr (t', ts') => within n t' ts'

variable {t t' : Tally ρ} {ts ts' : List (Tally ρ)} {total : Int}

theorem effects_of_inl (h : move t ts = .inl total) : effects t ts = total := by
  obtain ⟨_ | ⟨a | ⟨count, body⟩, rest⟩, sum, times⟩ := t
  · cases ts with
    | nil => cases h; rw [effects]
    | cons outer ts => cases h
  · cases h
  · cases h

/-- A move leaves the sum as it will be, and less to do. -/
theorem effects_of_inr (h : move t ts = .inr (t', ts')) : effects t ts = effects t' ts' ∧
    t'.work + tallyWork ts' < t.work + tallyWork ts := by
  obtain ⟨_ | ⟨a | ⟨count, body⟩, rest⟩, sum, times⟩ := t
  · cases ts with
    | nil => cases h
    | cons outer ts =>
      cases h
      exact ⟨by rw [effects], by simp only [Tally.work, tallyWork]; omega⟩
  · cases h
    refine ⟨by rw [effects], ?_⟩
    simp only [Tally.work, Program.size, Command.size]
    omega
  · cases h
    refine ⟨by rw [effects], ?_⟩
    simp only [Tally.work, tallyWork, Program.size, Command.size]
    omega

theorem within_of_work_le {n : Nat} (h : t.work + tallyWork ts ≤ n) :
    within n t ts = some (effects t ts) := by
  induction n generalizing t ts with
  | zero => exact absurd h (by simp only [Tally.work]; omega)
  | succ n ih =>
    unfold within
    cases hm : move t ts with
    | inl total => exact congrArg some (effects_of_inl hm).symm
    | inr next =>
      obtain ⟨heq, hless⟩ := effects_of_inr hm
      rw [heq]
      exact ih (by omega)

/-- What is pending is still to be added, in whatever order it waits. -/
theorem run_blocks (pending : Program ρ) (total : Nat) :
    blocks.run pending total = total + Program.size pending := by
  fun_induction Worklist.run blocks pending total with
  | case1 total => rfl
  | case2 c pending total ih =>
    rw [ih]
    cases c with
    | act a => simp only [blocks, List.nil_append, Program.size, Command.size]; omega
    | loop count body =>
      simp only [blocks, Program.size_append, Program.size_reverse, Program.size, Command.size]
      omega

end Count

theorem countEffects_eq (p : Program ρ) : countEffects p = Program.weight p := by
  rw [countEffects, Count.effects_eq, Count.effects, Int.zero_add, Int.mul_one]

theorem countBlocks_eq (p : Program ρ) : countBlocks p = Program.size p := by
  rw [countBlocks, Count.run_blocks, Program.size_reverse, Nat.zero_add]

/-- One round for each command. -/
theorem countBlocks_within (p : Program ρ) :
    Count.blocks.within (Program.size p) p.reverse 0 = some (countBlocks p) := by
  refine Count.blocks.within_eq 0 (Nat.le_of_eq ?_)
  rw [Worklist.rounds, totalCost_reverse]
  exact Count.totalCost_size p

end BlockGrid
