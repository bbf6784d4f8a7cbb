import BlockGrid.Proofs.Run.Timeline

/-!
# BlockGrid.Proofs.Run.Lives

One run against its script.

* `Interpreter.mark` — the number of the latest run and whether it was stopped. Whether a run is
  live, held or in progress is read off the mark.
* `Job.gone`   — the interpreter after the last piece of a run that has reported or was stopped.
* `Life.Keeps` — how far a run has come. Until a stop, what it has called back and what it has still
  to call back make up its script; after a stop nothing is added.
* `keeps_piece`, `keeps_gone`, `keeps_stop` — what a piece, the last piece and a stop preserve.
-/

namespace BlockGrid

namespace Interpreter

def mark (i : Interpreter) : Option (Nat × Bool) := i.current.map fun c => (c.run, c.stopped)

variable {i : Interpreter} {n : Nat}

theorem isLive_iff : i.isLive n = true ↔ i.mark = some (n, false) := by
  unfold isLive mark
  cases i.current with
  | none => simp
  | some c => simp

theorem holds_iff : i.holds n = true ↔ ∃ b, i.mark = some (n, b) := by
  unfold holds mark
  cases i.current with
  | none => simp
  | some c => simp

theorem isRunning_iff : i.isRunning = true ↔ ∃ n, i.mark = some (n, false) := by
  unfold isRunning mark
  cases i.current with
  | none => simp
  | some c => simp

theorem mark_stop (i : Interpreter) : i.stop.mark = i.mark.map fun m => (m.1, true) := by
  unfold stop mark
  cases i.current <;> rfl

theorem mark_applied (i : Interpreter) (b : Actor) : (i.applied b).mark = i.mark := by
  unfold applied mark
  cases i.current <;> rfl

end Interpreter

namespace Job

variable {i i' : Interpreter} {j : Job} {s : Signal}

/-- A run that is over leaves the interpreter to a newer one, if there is one. -/
def gone (j : Job) (i : Interpreter) : Interpreter :=
  if i.holds j.run then
    { i with
      current := none
      lastOutcome := if j.point = .leaving then i.lastOutcome else some .cancelled }
  else i

theorem advance_eq_gone (h : j.point = .leaving ∨ i.isLive j.run = false) :
    ∃ logs, j.advance i = (j.gone i, logs, .ended) := by
  by_cases hp : j.point = .leaving
  · refine ⟨[], ?_⟩
    rw [advance_leaving i hp, gone, Interpreter.release]
    simp only [hp, if_true]
  · have hl : i.isLive j.run = false := h.resolve_left hp
    have hadv : j.advance i = j.cancel i := by
      unfold advance
      cases hq : j.point with
      | leaving => exact absurd hq hp
      | looking => simp [hl]
      | asleep m => simp [hl]
    refine ⟨[⟨.info, j.text "cancelled, no verdict"⟩], hadv.trans ?_⟩
    cases hh : i.holds j.run with
    | true =>
      have hc : (i.concluded .cancelled).holds j.run = true := hh
      simp only [cancel, gone, hh, if_true, Interpreter.release, hc, hp, if_false]
      rfl
    | false => simp [cancel, gone, hh, Interpreter.release]

theorem mark_gone (j : Job) (i : Interpreter) :
    (j.gone i).mark = if i.holds j.run then none else i.mark := by
  unfold gone
  split <;> rfl

theorem accepted_gone (j : Job) (i : Interpreter) : (j.gone i).accepted = i.accepted := by
  unfold gone
  split <;> rfl

theorem state_gone (j : Job) (i : Interpreter) : (j.gone i).state = i.state := by
  unfold gone
  split <;> rfl

theorem script_eq_nil : j.script = [] ↔ j.point = .leaving := by
  constructor
  · intro h
    by_contra hp
    rw [script_of_open hp, World.script] at h
    simp at h
  · exact script_of_leaving

/-- What a piece of a run in progress leaves to come, and what it does not touch. -/
theorem Piece.facts (h : Piece j i i' s) :
    i'.mark = i.mark ∧ i'.accepted = i.accepted ∧
      ∃ k, s.job? = some k ∧ k.run = j.run ∧ calls s.events ++ k.script = j.script ∧
        (k.point = .leaving ↔ j.isAtEnd = true) := by
  cases h with
  | @sleeps m k hend hc hs =>
    refine ⟨rfl, rfl, k, rfl, hc.run, hs, ?_⟩
    simp [hend, hc.goesOn]
  | @yields k hend hc hs =>
    refine ⟨rfl, rfl, k, rfl, hc.run, hs, ?_⟩
    simp [hend, hc.goesOn]
  | @moves b k hend hc hs =>
    refine ⟨Interpreter.mark_applied i b, rfl, k, rfl, hc.run, hs.symm, ?_⟩
    simp [hend, hc.goesOn]
  | reports hend hs =>
    refine ⟨rfl, rfl, { j with point := .leaving }, rfl, rfl, ?_, ?_⟩
    · rw [hs, script_of_leaving rfl]; rfl
    · simp [hend]

end Job

namespace Life

/-- The callbacks of the run when it is left alone. -/
def script (l : Life) : List Event := l.world.script l.origin (Interpreter.walked l.program)

theorem calls_alone (l : Life) : calls l.alone = l.script := Interpreter.calls_alone ..

/-- The verdict of the run when it is left alone. -/
def verdict (l : Life) : Bool :=
  l.world.ending l.origin (Interpreter.walked l.program) == .success

theorem verdictsOf_script (l : Life) : verdictsOf l.script = [l.verdict] :=
  BlockGrid.verdictsOf_script ..

/-- What the run has still to call back. -/
def rest (l : Life) : List Event :=
  match l.job with
  | some j => j.script
  | none => []

/-- The events `es` keep to the script of the run. -/
structure Keeps (l : Life) (es : List Event) : Prop where
  told : calls es <+: l.script
  whole : l.reached = true ↔ calls es = l.script
  leaving : ∀ j, l.job = some j → (j.point = .leaving ↔ l.reached = true)
  rest : l.stopped = false → calls es ++ l.rest = l.script

variable {l : Life} {es : List Event} {j : Job} {s : Signal}

theorem script_pass (l : Life) (j : Job) (s : Signal) : (l.pass j s).script = l.script := rfl

theorem script_ne_nil (l : Life) : l.script ≠ [] := by
  simp [script, World.script]

theorem keeps_new (n : Nat) (p : Program Tree) (w : World) (a : Actor) :
    (new n p w a).Keeps [] where
  told := List.nil_prefix
  whole := by
    have := script_ne_nil (new n p w a)
    exact ⟨nofun, fun h => absurd h.symm this⟩
  leaving j hj := by
    cases hj
    simp [Interpreter.first, new]
  rest _ := Interpreter.script_first n p w a

/-- The run in progress goes on. -/
theorem keeps_piece {i i' : Interpreter} (h : l.Keeps es) (hj : l.job = some j)
    (hs : l.stopped = false) (hp : j.point ≠ .leaving) (hpiece : Job.Piece j i i' s) :
    (l.pass j s).Keeps (es ++ s.events) := by
  obtain ⟨-, -, k, hk, -, hscript, hlast⟩ := hpiece.facts
  have hnot : l.reached = false := by
    cases hr : l.reached with
    | false => rfl
    | true => exact absurd ((h.leaving j hj).mpr hr) hp
  have hsum : calls (es ++ s.events) ++ k.script = l.script := by
    have hrest := h.rest hs
    rw [Life.rest, hj] at hrest
    rw [calls_append, List.append_assoc, hscript]
    exact hrest
  have hreached : (l.pass j s).reached = j.isAtEnd := by simp [pass, hnot, hs]
  refine ⟨⟨k.script, hsum⟩, ?_, ?_, ?_⟩
  · -- All has been called back exactly when nothing is left to call back.
    rw [hreached, script_pass, ← hlast, ← Job.script_eq_nil]
    constructor
    · intro hnil
      rw [hnil, List.append_nil] at hsum
      exact hsum
    · intro hall
      have hlen := congrArg List.length hsum
      rw [hall, List.length_append] at hlen
      exact List.length_eq_zero_iff.mp (by omega)
  · intro j' hj'
    rw [hreached]
    have : k = j' := Option.some.inj (hk.symm.trans hj')
    rw [← this]; exact hlast
  · intro _
    rw [Life.rest, show (l.pass j s).job = some k from hk, script_pass]
    exact hsum

/-- The last piece of a run adds nothing. -/
theorem keeps_gone (h : l.Keeps es) (hj : l.job = some j)
    (hs : j.point = .leaving ∨ l.stopped = true) : (l.pass j .ended).Keeps es := by
  have hreached : (l.pass j .ended).reached = l.reached := by
    rcases hs with hp | hst
    · simp [pass, (h.leaving j hj).mp hp]
    · simp [pass, hst]
  have hover : (l.pass j .ended).job = none := rfl
  refine ⟨h.told, ?_, ?_, ?_⟩
  · -- A stopped run that ends here has not reached its end, even with nothing left to do.
    rw [hreached, script_pass]
    exact h.whole
  · intro k hk
    rw [hover] at hk
    cases hk
  · intro hst
    rcases hs with hp | hst'
    · have hall := h.whole.mp ((h.leaving j hj).mp hp)
      rw [Life.rest, hover, script_pass, List.append_nil]
      exact hall
    · rw [show (l.pass j .ended).stopped = l.stopped from rfl, hst'] at hst
      cases hst

theorem keeps_stop (h : l.Keeps es) : l.stop.Keeps es where
  told := h.told
  whole := h.whole
  leaving := h.leaving
  rest hst := h.rest (by simp only [stop, Bool.or_eq_false_iff] at hst; exact hst.1)

end Life

end BlockGrid
