import BlockGrid.Command.Idle

/-!
# BlockGrid.Command.Walker

Walking a program one effect at a time, without expanding it.

* `Frame`  — a loop being gone round: what is left of this round, and how many rounds follow.
* `Walker` — the open frames, innermost first, and the unit steps left of the current move.
* `step`   — one move of the walker, which may hand out an action.
* `next?`  — the next action and the walker after it.
* `take`   — the first actions of a walk.
-/

namespace BlockGrid

structure Frame (ρ : Type) where
  body : List (Marked ρ)
  rest : List (Marked ρ)
  again : Nat

structure Walker (ρ : Type) where
  pending : Option (Action ρ × Nat)
  frames : List (Frame ρ)

/-- Rounds after the first. A loop that is entered at all goes round once. -/
def roundsAfterFirst (count : Int) : Nat := (count - 1).toNat

namespace Walker

variable {ρ : Type}

inductive Move (ρ : Type) where
  | emit (a : Action ρ) (w : Walker ρ)
  | silent (w : Walker ρ)
  | finished

def ofProgram (p : Program ρ) : Walker ρ :=
  let marked := markAll p
  ⟨none, [⟨marked, marked, 0⟩]⟩

/-- Hands out an action of which `n` more repeats follow. -/
def emitting (a : Action ρ) (n : Nat) (frames : List (Frame ρ)) : Move ρ :=
  .emit a ⟨if n = 0 then none else some (a, n), frames⟩

def step (w : Walker ρ) : Move ρ :=
  match w.pending with
  | some (a, n + 1) => emitting a n w.frames
  | some (_, 0) => .silent ⟨none, w.frames⟩
  | none =>
    match w.frames with
    | [] => .finished
    | ⟨body, [], again + 1⟩ :: fs => .silent ⟨none, ⟨body, body, again⟩ :: fs⟩
    | ⟨_, [], 0⟩ :: fs => .silent ⟨none, fs⟩
    | ⟨body, .act a :: rest, again⟩ :: fs =>
      .silent ⟨some (a, a.repeats), ⟨body, rest, again⟩ :: fs⟩
    | ⟨body, .loop idle count inner :: rest, again⟩ :: fs =>
      if idle then .silent ⟨none, ⟨body, rest, again⟩ :: fs⟩
      else .silent ⟨none, ⟨inner, inner, roundsAfterFirst count⟩ :: ⟨body, rest, again⟩ :: fs⟩

mutual

/-- A bound on the moves that a command takes. -/
def workOf : Marked ρ → Nat
  | .act a => 2 + a.repeats
  | .loop _ count body => 2 + (roundsAfterFirst count + 1) * (workOfAll body + 1)

def workOfAll : List (Marked ρ) → Nat
  | [] => 0
  | m :: ms => workOf m + workOfAll ms

end

def frameWork (f : Frame ρ) : Nat := workOfAll f.rest + f.again * (workOfAll f.body + 1) + 1

def framesWork : List (Frame ρ) → Nat
  | [] => 0
  | f :: fs => frameWork f + framesWork fs

def pendingWork : Option (Action ρ × Nat) → Nat
  | none => 0
  | some (_, n) => n + 1

/-- A bound on the moves before the walk is over. -/
def work (w : Walker ρ) : Nat := pendingWork w.pending + framesWork w.frames

theorem work_of_silent {w w' : Walker ρ} (h : w.step = .silent w') : w'.work < w.work := by
  obtain ⟨pending, frames⟩ := w
  unfold step at h
  split at h
  · simp [emitting] at h
  · cases h; simp_all [work, pendingWork]
  · split at h
    · simp at h
    · cases h
      simp_all only [work, pendingWork, framesWork, frameWork, workOfAll, Nat.succ_mul]
      omega
    · cases h
      simp_all only [work, pendingWork, framesWork, frameWork, workOfAll]
      omega
    · cases h
      simp_all only [work, pendingWork, framesWork, frameWork, workOfAll, workOf]
      omega
    · split at h
      · cases h
        simp_all only [work, pendingWork, framesWork, frameWork, workOfAll, workOf, Nat.add_mul]
        omega
      · cases h
        simp_all only [work, pendingWork, framesWork, frameWork, workOfAll, workOf, Nat.add_mul]
        omega

def next? (w : Walker ρ) : Option (Action ρ × Walker ρ) :=
  match _h : w.step with
  | .emit a w' => some (a, w')
  | .silent w' => next? w'
  | .finished => none
  termination_by w.work
  decreasing_by exact work_of_silent ‹_›

theorem work_of_emit {w w' : Walker ρ} {a : Action ρ} (h : w.step = .emit a w') :
    w'.work < w.work := by
  obtain ⟨pending, frames⟩ := w
  unfold step at h
  split at h
  · rename_i b n hp
    simp only [emitting, Move.emit.injEq] at h
    obtain ⟨rfl, rfl⟩ := h
    simp only at hp
    subst hp
    by_cases hn : n = 0
    · simp [work, pendingWork, hn]
    · simp [work, pendingWork, hn]
  · cases h
  · split at h
    any_goals cases h
    split at h <;> cases h

/-- Handing out an action brings the end of the walk nearer. -/
theorem work_of_next? {w w' : Walker ρ} {a : Action ρ} (h : w.next? = some (a, w')) :
    w'.work < w.work := by
  fun_induction next? w with
  | case1 w b v hs => cases h; exact work_of_emit hs
  | case2 w v hs ih => exact Nat.lt_trans (ih h) (work_of_silent hs)
  | case3 => cases h

/-- The first `n` actions and the walker after them. -/
def take : Nat → Walker ρ → List (Action ρ) × Walker ρ
  | 0, w => ([], w)
  | n + 1, w =>
    match w.next? with
    | none => ([], w)
    | some (a, w') =>
      let (rest, last) := take n w'
      (a :: rest, last)

end Walker

end BlockGrid
