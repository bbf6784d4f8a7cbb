import BlockGrid.Command.Expansion
import BlockGrid.Command.Walker
import BlockGrid.Proofs.Command.Marking

/-!
# BlockGrid.Proofs.Command.Walk

A walk hands out the expansion of its program.

* `Program.isRegular`, `Program.strides` — programs without negative counts, and such whose moves go
  at least so far.
* `Walker.left`   — the actions that a walker has still to hand out. One move of the walker takes
  at most the first of them (`left_of_step`).
* `left_ofProgram` — before the first move these are the expansion of the program, when no loop in
  it has a negative count. A loop with a negative count goes round once.
-/

namespace BlockGrid

variable {ρ : Type}

mutual

/-- No loop in the command has a negative count. -/
def Command.isRegular : Command ρ → Bool
  | .act _ => true
  | .loop count body => decide (0 ≤ count) && Program.isRegular body

def Program.isRegular : List (Command ρ) → Bool
  | [] => true
  | c :: cs => c.isRegular && Program.isRegular cs

end

mutual

/-- No move in the command goes less far than `least`, and no count is negative. -/
def Command.strides (least : Int) : Command ρ → Bool
  | .act (.move d) => decide (least ≤ d)
  | .act (.turn _) => true
  | .act (.unrecognized _ _) => true
  | .loop count body => decide (0 ≤ count) && Program.strides least body

def Program.strides (least : Int) : List (Command ρ) → Bool
  | [] => true
  | c :: cs => c.strides least && Program.strides least cs

end

mutual

theorem Command.isRegular_of_strides {least : Int} (c : Command ρ) (h : c.strides least = true) :
    c.isRegular = true := by
  cases c with
  | act a => rfl
  | loop count body =>
    simp only [Command.strides, Bool.and_eq_true] at h
    have hbody := Program.isRegular_of_strides body h.2
    rw [Command.isRegular, h.1, hbody]
    rfl

theorem Program.isRegular_of_strides {least : Int} (p : List (Command ρ))
    (h : Program.strides least p = true) : Program.isRegular p = true := by
  cases p with
  | nil => rfl
  | cons c p =>
    simp only [Program.strides, Bool.and_eq_true] at h
    have hc := Command.isRegular_of_strides c h.1
    have hp := Program.isRegular_of_strides p h.2
    rw [Program.isRegular, hc, hp]
    rfl

end

/-! ## What is left of a walk -/

mutual

/-- The actions of a marked command. A loop that is entered goes round at least once. -/
def Marked.expand : Marked ρ → List (Action ρ)
  | .act a => List.replicate a.repeats a
  | .loop idle count body =>
    if idle then []
    else (List.replicate (roundsAfterFirst count + 1) (Marked.expandAll body)).flatten

def Marked.expandAll : List (Marked ρ) → List (Action ρ)
  | [] => []
  | m :: ms => m.expand ++ Marked.expandAll ms

end

def Frame.left (f : Frame ρ) : List (Action ρ) :=
  Marked.expandAll f.rest ++ (List.replicate f.again (Marked.expandAll f.body)).flatten

namespace Walker

def pendingLeft : Option (Action ρ × Nat) → List (Action ρ)
  | none => []
  | some (a, n) => List.replicate n a

/-- The actions still to be handed out, in order. -/
def left (w : Walker ρ) : List (Action ρ) := pendingLeft w.pending ++ w.frames.flatMap Frame.left

theorem pendingLeft_repeats (a : Action ρ) (n : Nat) :
    pendingLeft (if n = 0 then none else some (a, n)) = List.replicate n a := by
  by_cases hn : n = 0
  · simp [hn, pendingLeft]
  · simp [hn, pendingLeft]

/-- One move hands out the first action that is left, or none. -/
theorem left_of_step (w : Walker ρ) :
    match w.step with
    | .emit a w' => w.left = a :: w'.left
    | .silent w' => w.left = w'.left
    | .finished => w.left = [] := by
  obtain ⟨pending, frames⟩ := w
  rcases pending with _ | ⟨a, _ | n⟩
  · rcases frames with _ | ⟨⟨body, rest, again⟩, fs⟩
    · rfl
    rcases rest with _ | ⟨m, rest⟩
    · rcases again with _ | again
      · simp [step, left, pendingLeft, Frame.left, Marked.expandAll]
      · simp [step, left, pendingLeft, Frame.left, Marked.expandAll, List.replicate_succ]
    cases m with
    | act a => simp [step, left, pendingLeft, Frame.left, Marked.expandAll, Marked.expand]
    | loop idle count inner =>
      cases idle with
      | true => simp [step, left, pendingLeft, Frame.left, Marked.expandAll, Marked.expand]
      | false =>
        simp [step, left, pendingLeft, Frame.left, Marked.expandAll, Marked.expand,
          List.replicate_succ]
  · simp [step, left, pendingLeft]
  · show pendingLeft (some (a, n + 1)) ++ _ = a :: (pendingLeft (if n = 0 then none else _) ++ _)
    rw [pendingLeft_repeats]
    rfl

theorem left_of_finished {w : Walker ρ} (h : w.step = .finished) : w.left = [] := by
  have hleft := left_of_step w
  rwa [h] at hleft

theorem left_of_silent {w w' : Walker ρ} (h : w.step = .silent w') : w.left = w'.left := by
  have hleft := left_of_step w
  rwa [h] at hleft

theorem left_of_emit {w w' : Walker ρ} {a : Action ρ} (h : w.step = .emit a w') :
    w.left = a :: w'.left := by
  have hleft := left_of_step w
  rwa [h] at hleft

theorem left_of_next? {w w' : Walker ρ} {a : Action ρ} (h : w.next? = some (a, w')) :
    w.left = a :: w'.left := by
  fun_induction next? w with
  | case1 w b v hs => cases h; exact left_of_emit hs
  | case2 w v hs ih => exact (left_of_silent hs).trans (ih h)
  | case3 => cases h

theorem left_of_next?_none {w : Walker ρ} (h : w.next? = none) : w.left = [] := by
  fun_induction next? w with
  | case1 => cases h
  | case2 w v hs ih => exact (left_of_silent hs).trans (ih h)
  | case3 w hs => exact left_of_finished hs

end Walker

/-! ## The expansion -/

theorem Marked.expandAll_of_idle {ms : List (Marked ρ)} (h : ms.all Marked.isIdle = true) :
    Marked.expandAll ms = [] := by
  induction ms with
  | nil => rfl
  | cons m ms ih =>
    simp only [List.all_cons, Bool.and_eq_true] at h
    obtain ⟨hm, hms⟩ := h
    cases m with
    | act a => cases hm
    | loop idle count body =>
      simp only [Marked.isIdle] at hm
      simp [Marked.expandAll, Marked.expand, hm, ih hms]

/-- How often a loop is gone round. -/
def roundsOf (count : Int) : Nat := if count = 0 then 0 else roundsAfterFirst count + 1

theorem roundsOf_eq_zero_iff {count : Int} : roundsOf count = 0 ↔ count = 0 := by
  unfold roundsOf; split <;> simp_all

theorem roundsOf_eq_toNat {count : Int} (h : 0 ≤ count) : roundsOf count = count.toNat := by
  unfold roundsOf roundsAfterFirst; split <;> omega

/-- A loop that is passed over would have added nothing. -/
theorem Marked.expand_ofLoop (count : Int) (body : List (Marked ρ)) :
    (Marked.ofLoop count body).expand =
      (List.replicate (roundsOf count) (Marked.expandAll body)).flatten := by
  by_cases h0 : count = 0
  · subst h0; simp [Marked.ofLoop, Marked.expand, roundsOf]
  · by_cases hi : body.all Marked.isIdle = true
    · simp only [Marked.ofLoop, Marked.expand, hi, Bool.or_true, if_true]
      rw [Marked.expandAll_of_idle hi]
      simp
    · simp only [Marked.ofLoop, Marked.expand, beq_eq_false_iff_ne.mpr h0, Bool.false_or,
        if_neg hi, roundsOf, if_neg h0]

mutual

theorem Command.expand_mark (c : Command ρ) (h : c.isRegular = true) :
    c.mark.expand = c.expand := by
  cases c with
  | act a => simp [Command.mark, Marked.expand, Command.expand]
  | loop count body =>
    simp only [Command.isRegular, Bool.and_eq_true, decide_eq_true_eq] at h
    rw [Command.mark, Marked.expand_ofLoop, roundsOf_eq_toNat h.1,
      Program.expandAll_marks body h.2, Command.expand]

theorem Program.expandAll_marks (p : List (Command ρ)) (h : Program.isRegular p = true) :
    Marked.expandAll (Program.marks p) = Program.expand p := by
  cases p with
  | nil => rfl
  | cons c p =>
    simp only [Program.isRegular, Bool.and_eq_true] at h
    rw [Program.marks, Marked.expandAll, Command.expand_mark c h.1,
      Program.expandAll_marks p h.2, Program.expand]

end

theorem Walker.left_ofProgram_eq (p : Program ρ) :
    (Walker.ofProgram p).left = Marked.expandAll (Program.marks p) := by
  rw [← markAll_eq]
  simp [Walker.ofProgram, Walker.left, Walker.pendingLeft, Frame.left]

theorem Walker.left_ofProgram {p : Program ρ} (h : Program.isRegular p = true) :
    (Walker.ofProgram p).left = Program.expand p := by
  rw [left_ofProgram_eq, Program.expandAll_marks p h]

end BlockGrid
