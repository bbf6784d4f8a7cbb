import BlockGrid.Command.Expansion
import BlockGrid.Run.Outcome

/-!
# BlockGrid.Proofs.Grid.Path

Motions made one after the other, up to the first that cannot be made. This is what a run of a
program is compared with.

* `Program.motions` — the motions that a program asks for: its expansion without what was not
  recognized.
* `World.path`      — the states after each motion that is made.
* `World.clears`    — every motion can be made.
* `World.ending`    — the outcome: by the objective at the end of a clear path, else a blocked move.

A state on an open cell with a known facing leads to such states only (`contains_of_next?`).
-/

namespace BlockGrid

/-- The motion that an action asks for, once. -/
def Action.motion? {ρ : Type} : Action ρ → Option Motion
  | .move _ => some .step
  | .turn way => some (.turn way)
  | .unrecognized _ _ => none

def motionsOf {ρ : Type} (as : List (Action ρ)) : List Motion := as.filterMap Action.motion?

def Program.motions {ρ : Type} (p : Program ρ) : List Motion := motionsOf (Program.expand p)

theorem Direction.isKnown_name (d : Direction) : Direction.isKnown d.name = true := by
  cases d <;> decide

namespace World

variable {w : World} {a b : Actor} {m : Motion}

/-- The state after a motion that can be made. -/
def next? (w : World) (a : Actor) (m : Motion) : Option Actor :=
  match w.step a m with
  | .ok r => if r.legal then some r.actor else none
  | .error _ => none

def path (w : World) : Actor → List Motion → List Actor
  | _, [] => []
  | a, m :: ms =>
    match w.next? a m with
    | some b => b :: w.path b ms
    | none => []

def clears (w : World) : Actor → List Motion → Bool
  | _, [] => true
  | a, m :: ms =>
    match w.next? a m with
    | some b => w.clears b ms
    | none => false

/-- Where the path ends. -/
def arrival (w : World) (a : Actor) (ms : List Motion) : Actor := (w.path a ms).getLastD a

def ending (w : World) (a : Actor) (ms : List Motion) : Outcome :=
  if w.clears a ms then w.outcome (w.arrival a ms) else .illegalMove

theorem path_of_next? (h : w.next? a m = some b) (ms : List Motion) :
    w.path a (m :: ms) = b :: w.path b ms := by
  simp only [path, h]

theorem path_of_blocked (h : w.next? a m = none) (ms : List Motion) : w.path a (m :: ms) = [] := by
  simp only [path, h]

theorem ending_of_next? (h : w.next? a m = some b) (ms : List Motion) :
    w.ending a (m :: ms) = w.ending b ms := by
  simp only [ending, clears, arrival, path, h, List.getLastD_cons]

theorem ending_of_blocked (h : w.next? a m = none) (ms : List Motion) :
    w.ending a (m :: ms) = .illegalMove := by
  simp [ending, clears, h]

/-- A run succeeds when its whole path is clear and leads to the objective. -/
theorem ending_eq_success (w : World) (a : Actor) (ms : List Motion) :
    (w.ending a ms == .success) = (w.clears a ms && w.evaluate (w.arrival a ms)) := by
  unfold ending outcome
  cases w.clears a ms with
  | false => rfl
  | true => cases w.evaluate (w.arrival a ms) <;> rfl

theorem enter_legal (w : World) (a : Actor) (c : Cell) : (w.enter a c).legal = true := by
  unfold enter
  split
  · split <;> rfl
  · rfl

theorem position_enter (w : World) (a : Actor) (c : Cell) : (w.enter a c).actor.position = c := by
  unfold enter
  split
  · split <;> rfl
  · rfl

theorem direction_enter (w : World) (a : Actor) (c : Cell) :
    (w.enter a c).actor.direction = a.direction := by
  unfold enter
  split
  · split <;> rfl
  · rfl

theorem contains_eq_true :
    w.contains a = true ↔ (∃ d, Direction.ofName? a.direction = some d) ∧
      w.isOpen a.position = true := by
  simp only [contains, Direction.isKnown, Bool.and_eq_true, Option.isSome_iff_exists]

theorem contains_of_next? (h : w.contains a = true) (hn : w.next? a m = some b) :
    w.contains b = true := by
  obtain ⟨⟨d, hd⟩, ho⟩ := contains_eq_true.mp h
  cases m with
  | step =>
    simp only [next?, step, hd, advance] at hn
    by_cases hc : w.isOpen (d.ahead a.position) = true
    · rw [if_pos hc, enter_legal] at hn
      cases hn
      refine contains_eq_true.mpr ⟨⟨d, ?_⟩, ?_⟩
      · rw [direction_enter]; exact hd
      · rw [position_enter]; exact hc
    · rw [if_neg hc] at hn
      cases hn
  | turn way =>
    simp only [next?, step, turnName, hd] at hn
    cases hn
    refine contains_eq_true.mpr ⟨?_, ho⟩
    exact Option.isSome_iff_exists.mp (d.turned way).isKnown_name

end World

end BlockGrid
