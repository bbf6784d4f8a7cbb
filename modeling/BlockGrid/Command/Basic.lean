/-!
# BlockGrid.Command.Basic

Block programs in canonical form.

* `Action`  — a command without a body. What could not be read is kept as it was, of type `ρ`,
  and the program runs past it.
* `Command` — an action, or a loop around a program.
* `Program` — commands in order.
* `Kind`    — what an action does to the actor, one effect at a time.
* `size`    — the number of commands, loop bodies counted once.
-/

namespace BlockGrid

/-- `move` goes forward one unit step at a time; `turn` is a quarter turn. -/
inductive Action (ρ : Type) where
  | move (distance : Int)
  | turn (direction : String)
  | unrecognized (raw : ρ) (reason : String)
  deriving Inhabited

inductive Command (ρ : Type) where
  | act (a : Action ρ)
  | loop (count : Int) (body : List (Command ρ))
  deriving Inhabited

abbrev Program (ρ : Type) := List (Command ρ)

inductive Kind where
  | step
  | turn
  | skip
  deriving DecidableEq, Repr

def Kind.name : Kind → String
  | .step => "step"
  | .turn => "turn"
  | .skip => "skip"

namespace Action

def kind {ρ : Type} : Action ρ → Kind
  | .move _ => .step
  | .turn _ => .turn
  | .unrecognized _ _ => .skip

/-- How often the action takes effect when it is carried out once. -/
def repeats {ρ : Type} : Action ρ → Nat
  | .move d => d.toNat
  | .turn _ => 1
  | .unrecognized _ _ => 1

end Action

mutual

def Command.size {ρ : Type} : Command ρ → Nat
  | .act _ => 1
  | .loop _ body => 1 + Program.size body

def Program.size {ρ : Type} : List (Command ρ) → Nat
  | [] => 0
  | c :: cs => c.size + Program.size cs

end

theorem Command.size_pos {ρ : Type} (c : Command ρ) : 0 < c.size := by
  cases c <;> simp only [Command.size] <;> omega

theorem Program.size_append {ρ : Type} (p q : Program ρ) :
    Program.size (p ++ q) = Program.size p + Program.size q := by
  induction p with
  | nil => simp [Program.size]
  | cons c p ih => simp only [List.cons_append, Program.size, ih]; omega

theorem Program.size_reverse {ρ : Type} (p : Program ρ) :
    Program.size p.reverse = Program.size p := by
  induction p with
  | nil => rfl
  | cons c p ih => simp only [List.reverse_cons, Program.size_append, ih, Program.size]; omega

end BlockGrid
