import BlockGrid.Launch.Verdict
import BlockGrid.Proofs.Command.Count
import BlockGrid.Proofs.Run.Exported

/-!
# BlockGrid.Proofs.Launch.Budget

The blocks of a program, which the budget of a challenge is about.

* `Program.listing`     — the commands in the order of the text, each before those in its body.
* `Program.keepsBlocks` — what is lost in the editor's form: a loop with a negative count is read as
  one unknown node, without what is in it. `reread_size` says that nothing else is.
* `Launch.blocks_of_program` — the count is over after one round for each command and is the length of
  the listing; the exported form of a program from plain JSON has as many blocks and meets the same
  budgets.
-/

namespace BlockGrid

variable {ρ : Type}

mutual

def Command.listing : Command ρ → List (Command ρ)
  | .act a => [.act a]
  | .loop count body => .loop count body :: Program.listing body

def Program.listing : List (Command ρ) → List (Command ρ)
  | [] => []
  | c :: cs => c.listing ++ Program.listing cs

end

mutual

theorem Command.length_listing (c : Command ρ) : c.listing.length = c.size := by
  cases c with
  | act a => rfl
  | loop count body =>
    have hbody := Program.length_listing body
    rw [Command.listing, List.length_cons, hbody, Command.size, Nat.add_comm]

theorem Program.length_listing (p : List (Command ρ)) :
    (Program.listing p).length = Program.size p := by
  cases p with
  | nil => rfl
  | cons c p =>
    have hc := Command.length_listing c
    have hp := Program.length_listing p
    rw [Program.listing, List.length_append, hc, hp, Program.size]

end

/-! ## The blocks of the editor's form -/

mutual

/-- No loop with a negative count has anything in it. -/
def Command.keepsBlocks : Command ρ → Bool
  | .act _ => true
  | .loop count body => if count < 0 then body.isEmpty else Program.keepsBlocks body

def Program.keepsBlocks : List (Command ρ) → Bool
  | [] => true
  | c :: cs => c.keepsBlocks && Program.keepsBlocks cs

end

mutual

theorem Command.keepsBlocks_of_isRegular (c : Command ρ) (h : c.isRegular = true) :
    c.keepsBlocks = true := by
  cases c with
  | act a => rfl
  | loop count body =>
    rw [Command.isRegular, Bool.and_eq_true, decide_eq_true_eq] at h
    have hbody := Program.keepsBlocks_of_isRegular body h.2
    rw [Command.keepsBlocks, if_neg (Int.not_lt.mpr h.1), hbody]

theorem Program.keepsBlocks_of_isRegular (p : List (Command ρ)) (h : Program.isRegular p = true) :
    Program.keepsBlocks p = true := by
  cases p with
  | nil => rfl
  | cons c p =>
    rw [Program.isRegular, Bool.and_eq_true] at h
    have hc := Command.keepsBlocks_of_isRegular c h.1
    have hp := Program.keepsBlocks_of_isRegular p h.2
    rw [Program.keepsBlocks, hc, hp]
    rfl

end

theorem Program.size_eq_zero_iff {p : Program ρ} : Program.size p = 0 ↔ p.isEmpty = true := by
  cases p with
  | nil => exact iff_of_true rfl rfl
  | cons c p =>
    have hpos := c.size_pos
    refine iff_of_false ?_ Bool.false_ne_true
    rw [Program.size]
    omega

open BlockGrid.Tree

mutual

theorem Command.reread_size (c : Command Tree) : ∃ c', read (.ofJson c.toJson) = .ok c' ∧
    c'.size ≤ c.size ∧ (c'.size = c.size ↔ c.keepsBlocks = true) := by
  cases c with
  | act a =>
    obtain ⟨b, hb, -⟩ := reread_act a
    exact ⟨.act b, hb, Nat.le_refl 1, iff_of_true rfl rfl⟩
  | loop count body =>
    obtain ⟨q, hq, hle, heq⟩ := Program.reread_size body
    rw [Command.toJson]
    by_cases hneg : count < 0
    · refine ⟨_, read_loop_of_neg hneg _, ?_, ?_⟩
      · rw [Command.size, Command.size]
        omega
      · rw [Command.keepsBlocks, if_pos hneg, ← Program.size_eq_zero_iff, Command.size,
          Command.size]
        omega
    · refine ⟨_, read_loop (Int.not_lt.mp hneg) hq, ?_, ?_⟩
      · rw [Command.size, Command.size]
        omega
      · rw [Command.keepsBlocks, if_neg hneg, ← heq, Command.size, Command.size]
        omega

/-- The editor's form of a program is read as one with no more blocks. -/
theorem Program.reread_size (p : List (Command Tree)) :
    ∃ q, readAll (Tree.ofItems (Program.toJsonList p)) = .ok q ∧
      Program.size q ≤ Program.size p ∧
      (Program.size q = Program.size p ↔ Program.keepsBlocks p = true) := by
  cases p with
  | nil => exact ⟨[], readAll_nil, Nat.le_refl 0, iff_of_true rfl rfl⟩
  | cons c p =>
    obtain ⟨c', hc, hcle, hceq⟩ := Command.reread_size c
    obtain ⟨q, hq, hqle, hqeq⟩ := Program.reread_size p
    refine ⟨c' :: q, ?_, ?_, ?_⟩
    · rw [Program.toJsonList, Tree.ofItems, readAll_of_ok hc, hq]
      rfl
    · rw [Program.size, Program.size]
      omega
    · rw [Program.size, Program.size, Program.keepsBlocks, Bool.and_eq_true, ← hceq, ← hqeq]
      omega

end

/-! ## Budgets -/

namespace Launch

open Program

theorem budget_congr {p q : Program Tree} (h : countBlocks q = countBlocks p) (rank : Nat)
    (verbose : Bool) (s : Settings) (u : Setup) :
    budget rank verbose s { u with program := q } =
      budget rank verbose s { u with program := p } := by
  simp only [budget, isOverBudget, h]
  rfl

/-- The loop that counts the blocks of a program is over after as many rounds as the program has
commands, and comes to the number of them. The editor's form of the program is read as a program
again, and that one has as many blocks unless a loop with a negative count lost its body. No count
is negative in a program of plain JSON: it meets the same budgets in both forms. -/
theorem blocks_of_program (p : Program Tree) :
    Count.blocks.within (size p) p.reverse 0 = some (countBlocks p) ∧
    countBlocks p = size p ∧
    countBlocks p = (listing p).length ∧
    ∃ q, ofTree (.ofJson (.arr (toJsonList p))) = .ok q ∧
      (countBlocks q = countBlocks p ↔ keepsBlocks p = true) ∧
      (isRegular p = true ∨ (∃ v : Json, ofTree (.ofJson v) = .ok p) →
        countBlocks q = countBlocks p ∧
        (∀ c : Challenge, c.allows (countBlocks q) = c.allows (countBlocks p)) ∧
        ∀ (rank : Nat) (verbose : Bool) (s : Settings) (u : Setup),
          budget rank verbose s { u with program := q } =
            budget rank verbose s { u with program := p }) := by
  obtain ⟨q, hread, -, hsize⟩ := reread_size p
  have hcount : countBlocks q = countBlocks p ↔ keepsBlocks p = true := by
    rw [countBlocks_eq, countBlocks_eq, hsize]
  refine ⟨countBlocks_within p, countBlocks_eq p, ?_, q, (ofTree_of_nodes rfl).trans hread, hcount,
    fun h => ?_⟩
  · rw [countBlocks_eq, length_listing]
  · have hreg : isRegular p = true := by
      rcases h with h | ⟨v, hv⟩
      · exact h
      · exact isRegular_of_isSound p (isSound_of_ofTree hv)
    have hsame := hcount.mpr (keepsBlocks_of_isRegular p hreg)
    exact ⟨hsame, fun c => by rw [hsame], budget_congr hsame⟩

/-- A loop that is never gone round counts with what is in it. -/
def resting : Program Tree := [.loop 0 [.act (.move 1), .loop 3 []], .act (.turn "left")]

theorem blocks_of_resting : (∃ v : Json, ofTree (.ofJson v) = .ok resting) ∧
    Count.blocks.within 4 resting.reverse 0 = some 4 ∧
    ∃ q, ofTree (.ofJson (.arr (toJsonList resting))) = .ok q ∧ countBlocks q = 4 ∧
      ∀ c : Challenge, c.allows (countBlocks q) = c.allows 4 := by
  have hplain : ∃ v : Json, ofTree (.ofJson v) = .ok resting := by
    have hread : ofTree (.ofJson (.arr (toJsonList resting))) = .ok (bare resting) :=
      ofTree_toJsonList (by decide)
    exact ⟨_, hread⟩
  obtain ⟨hwithin, hsize, -, q, hread, -, hsame⟩ := blocks_of_program resting
  have hfour : countBlocks resting = 4 := hsize
  obtain ⟨hcount, hallows, -⟩ := hsame (.inr hplain)
  rw [hfour] at hwithin hcount hallows
  exact ⟨hplain, hwithin, q, hread, hcount, hallows⟩

end Launch

end BlockGrid
