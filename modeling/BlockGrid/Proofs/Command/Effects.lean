import BlockGrid.Proofs.Command.Walk

/-!
# BlockGrid.Proofs.Command.Effects

The effects of a program, by recursion over its commands, and the walk that finds them with open
frames and never expands a loop.

* `Program.effects`   — the effects, each with its kind and the action it carries out.
* `Walks w es`        — the walker `w` comes to its end after finitely many moves and hands out
  exactly `es`.
* `walks_iff`         — a walker walks what it has left, and nothing else.
* `walks_iff_effects` — for the walker of a program these are its effects, whatever the nesting and
  however large the counts.
-/

namespace BlockGrid

variable {ρ : Type}

mutual

def Command.effects : Command ρ → List (Kind × Action ρ)
  | .act (.move d) => List.replicate d.toNat (.step, .move d)
  | .act (.turn way) => [(.turn, .turn way)]
  | .act (.unrecognized raw reason) => [(.skip, .unrecognized raw reason)]
  | .loop count body => (List.replicate count.toNat (Program.effects body)).flatten

def Program.effects : List (Command ρ) → List (Kind × Action ρ)
  | [] => []
  | c :: cs => c.effects ++ Program.effects cs

end

def Action.effect (a : Action ρ) : Kind × Action ρ := (a.kind, a)

mutual

theorem Command.effects_eq (c : Command ρ) : c.effects = c.expand.map Action.effect := by
  cases c with
  | act a =>
    cases a with
    | move d =>
      rw [Command.effects, Command.expand, List.map_replicate]
      rfl
    | turn way => rfl
    | unrecognized raw reason => rfl
  | loop count body =>
    have hbody := Program.effects_eq body
    rw [Command.effects, Command.expand, hbody, List.map_flatten, List.map_replicate]

theorem Program.effects_eq (p : List (Command ρ)) :
    Program.effects p = (Program.expand p).map Action.effect := by
  cases p with
  | nil => rfl
  | cons c p =>
    have hc := Command.effects_eq c
    have hp := Program.effects_eq p
    rw [Program.effects, Program.expand, hc, hp, List.map_append]

end

namespace Walker

/-- A whole walk. -/
inductive Walks : Walker ρ → List (Kind × Action ρ) → Prop where
  | finished {w : Walker ρ} : w.step = .finished → Walks w []
  | silent {w w' : Walker ρ} {es : List (Kind × Action ρ)} :
      w.step = .silent w' → Walks w' es → Walks w es
  | emit {w w' : Walker ρ} {a : Action ρ} {es : List (Kind × Action ρ)} :
      w.step = .emit a w' → Walks w' es → Walks w (a.effect :: es)

section Moves

variable {w w' : Walker ρ} {a : Action ρ} {es : List (Kind × Action ρ)}

/-- Every walker comes to its end: each move brings it nearer. -/
theorem walks_left (w : Walker ρ) : Walks w (w.left.map Action.effect) := by
  induction hn : w.work using Nat.strongRecOn generalizing w with
  | ind n ih =>
    subst hn
    cases hs : w.step with
    | finished =>
      rw [left_of_finished hs]
      exact .finished hs
    | silent w' =>
      rw [left_of_silent hs]
      exact .silent hs (ih w'.work (work_of_silent hs) w' rfl)
    | emit a w' =>
      rw [left_of_emit hs, List.map_cons]
      exact .emit hs (ih w'.work (work_of_emit hs) w' rfl)

theorem Walks.eq_left (h : Walks w es) : es = w.left.map Action.effect := by
  induction h with
  | finished hs => rw [left_of_finished hs, List.map_nil]
  | silent hs _ ih => rw [left_of_silent hs, ih]
  | emit hs _ ih => rw [left_of_emit hs, ih, List.map_cons]

theorem walks_iff : Walks w es ↔ es = w.left.map Action.effect :=
  ⟨Walks.eq_left, fun h => h ▸ walks_left w⟩

theorem next?_eq_none_iff : w.next? = none ↔ w.left = [] := by
  constructor
  · exact left_of_next?_none
  · intro h
    cases hn : w.next? with
    | none => rfl
    | some r =>
      obtain ⟨a, w'⟩ := r
      have hleft := left_of_next? hn
      rw [h] at hleft
      cases hleft

end Moves

/-- A walk that is asked for `n` actions hands out the first `n`, and has the others left. -/
theorem take_eq (n : Nat) (w : Walker ρ) :
    (w.take n).1 = w.left.take n ∧ (w.take n).2.left = w.left.drop n := by
  induction n generalizing w with
  | zero => exact ⟨rfl, rfl⟩
  | succ n ih =>
    cases hn : w.next? with
    | none =>
      have hleft := left_of_next?_none hn
      simp [take, hn, hleft]
    | some r =>
      obtain ⟨a, w'⟩ := r
      have hleft := left_of_next? hn
      obtain ⟨hfst, hsnd⟩ := ih w'
      simp only [take, hn, hleft, List.take_succ_cons, List.drop_succ_cons]
      exact ⟨congrArg (a :: ·) hfst, hsnd⟩

/-- The walker of a program has its effects before it. -/
theorem left_effects {p : Program ρ} (h : Program.isRegular p = true) :
    (Walker.ofProgram p).left.map Action.effect = Program.effects p := by
  rw [left_ofProgram h, Program.effects_eq]

theorem walks_ofProgram {p : Program ρ} {es : List (Kind × Action ρ)}
    (h : Program.isRegular p = true) : Walks (.ofProgram p) es ↔ es = Program.effects p := by
  rw [walks_iff, left_effects h]

/-- The walker of a program walks its effects and nothing else. Asked for some number of
actions it hands out that many, and it is at its end once all of them are handed out. -/
theorem walks_iff_effects (p : Program ρ) (h : Program.isRegular p = true) :
    (∀ es, Walks (.ofProgram p) es ↔ es = Program.effects p) ∧
    ∀ n, ((Walker.ofProgram p).take n).1.map Action.effect = (Program.effects p).take n ∧
      (((Walker.ofProgram p).take n).2.next? = none ↔ (Program.effects p).length ≤ n) := by
  have hleft := left_effects h
  constructor
  · exact fun es => walks_ofProgram h
  · intro n
    obtain ⟨hfst, hsnd⟩ := take_eq n (Walker.ofProgram p)
    constructor
    · rw [hfst, List.map_take, hleft]
    · rw [next?_eq_none_iff, hsnd, List.drop_eq_nil_iff, ← hleft, List.length_map]

/-- Loops inside a loop, one of them without rounds and one with nothing but idle rounds. -/
def nested : Program Nat :=
  [.loop 2 [.act (.turn "left"), .loop 0 [.act (.move 5)], .loop 2 [.act (.move 2)]],
    .loop 100 [.loop 3 []], .act (.unrecognized 7 "unknown command")]

theorem walks_nested : Program.isRegular nested = true ∧
    Walks (.ofProgram nested)
      [(.turn, .turn "left"), (.step, .move 2), (.step, .move 2), (.step, .move 2),
        (.step, .move 2), (.turn, .turn "left"), (.step, .move 2), (.step, .move 2),
        (.step, .move 2), (.step, .move 2), (.skip, .unrecognized 7 "unknown command")] := by
  have hreg : Program.isRegular nested = true := by decide
  refine ⟨hreg, ?_⟩
  rw [(walks_iff_effects nested hreg).1]
  rfl

end Walker

end BlockGrid
