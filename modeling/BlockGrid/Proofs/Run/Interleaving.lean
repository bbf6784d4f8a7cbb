import BlockGrid.Proofs.Run.Starts

/-!
# BlockGrid.Proofs.Run.Interleaving

Runs on one interpreter keep apart, in whatever order they go on.

* `states_prefix`, `states_whole` — a run shows the states it would show alone, up to some point,
  and all of them if it came to its end unstopped.
* `resume_of_stopped` — a stopped run that goes on ends there and adds nothing.
* `stopped_after`     — so nothing more is shown of it, whatever is done.
* `comes_to_end`      — a run that is resumed often enough is over.
* `runs_keep_apart`   — all of this after every history.
-/

namespace BlockGrid

namespace Timeline

open Interpreter

variable {c : Timeline} {m n : Nat} {l : Life} {j : Job}

theorem states_eq_calls (c : Timeline) (n : Nat) :
    c.states n = statesOf (calls (c.shown (.run n))) := (statesOf_calls _).symm

theorem statesOf_alone (l : Life) : statesOf l.alone = statesOf l.script := by
  rw [← statesOf_calls, Life.calls_alone]

theorem Valid.states_prefix (hv : c.Valid) (hl : c.lives n = some l) :
    c.states n <+: statesOf l.alone := by
  rw [states_eq_calls, statesOf_alone]
  exact (hv.keeps n l hl).told.filterMap _

theorem Valid.states_whole (hv : c.Valid) (hl : c.lives n = some l) (hover : l.job = none)
    (hst : l.stopped = false) : c.states n = statesOf l.alone := by
  have hrest := (hv.keeps n l hl).rest hst
  rw [Life.rest, hover, List.append_nil] at hrest
  rw [states_eq_calls, hrest, statesOf_alone]

/-! ## Stopped runs -/

theorem Valid.resume_of_stopped (hv : c.Valid) (hl : c.lives n = some l) (hj : l.job = some j)
    (hst : l.stopped = true) :
    ∃ logs, c.resume n = c.settle n l j (j.gone c.interpreter, logs, .ended) := by
  rcases hv.resume_cases n with ⟨hover, -⟩ | ⟨l', j', hl', hj', hcase⟩
  · rw [hover l hl] at hj; cases hj
  rw [hl] at hl'
  cases hl'
  rw [hj] at hj'
  cases hj'
  rcases hcase with ⟨-, hlast⟩ | ⟨-, hst', -⟩
  · exact hlast
  · rw [hst] at hst'; cases hst'

/-- The mark is that of the newest run, so an older one has nothing to let go of. -/
theorem Valid.gone_of_newer (hv : c.Valid) (hl : c.lives n = some l) (hj : l.job = some j)
    (hnm : n < m) (hm : c.lives m ≠ none) : j.gone c.interpreter = c.interpreter := by
  have hnot : c.interpreter.holds j.run = false := by
    cases hh : c.interpreter.holds j.run with
    | false => rfl
    | true =>
      rw [hv.owned n l j hl hj] at hh
      obtain ⟨b, hb⟩ := holds_iff.mp hh
      obtain ⟨lm, hlm⟩ := Option.ne_none_iff_exists'.mp hm
      have hlast := ((hv.marked n b).mp hb).1
      have := hv.bounded m lm hlm
      omega
  simp [Job.gone, hnot]

/-- A stop is for good, and nothing more is shown of a stopped run, whatever is done. -/
theorem Valid.stopped_carry (hv : c.Valid) (hl : c.lives n = some l) (hst : l.stopped = true)
    (x : Act) :
    ∃ l', (c.carry x).lives n = some l' ∧ l'.stopped = true ∧
      (c.carry x).shown (.run n) = c.shown (.run n) := by
  cases x with
  | start t w initial =>
    obtain ⟨hlives, hshown⟩ := start_frame (hv.bounded n l hl) t w initial
    exact ⟨l, hlives.trans hl, hst, hshown⟩
  | resume m =>
    by_cases hm : m = n
    · subst hm
      cases hj : l.job with
      | none => exact ⟨l, by rw [carry, resume_of_over hl hj, hl], hst,
          by rw [carry, resume_of_over hl hj]⟩
      | some j =>
        obtain ⟨logs, hres⟩ := hv.resume_of_stopped hl hj hst
        refine ⟨l.pass j .ended, by rw [carry, hres, lives_settle_self], hst, ?_⟩
        rw [carry, hres, shown_settle_self]
        exact List.append_nil _
    · have hnm : n ≠ m := Ne.symm hm
      exact ⟨l, (lives_resume_ne hnm).trans hl, hst, shown_resume_ne (run_ne hnm)⟩
  | stop => exact ⟨l.stop, lives_stop hl, by rw [Life.stop, hst, Bool.true_or], rfl⟩
  | seed state => cases state <;> exact ⟨l, hl, hst, rfl⟩
  | reset w => exact ⟨l, hl, hst, rfl⟩

theorem stopped_after {h : List Act} (hl : (after h).lives n = some l) (hst : l.stopped = true)
    (more : List Act) :
    ∃ l', (after (h ++ more)).lives n = some l' ∧ l'.stopped = true ∧
      (after (h ++ more)).shown (.run n) = (after h).shown (.run n) := by
  induction more using List.reverseRecOn with
  | nil => exact ⟨l, by rw [List.append_nil]; exact hl, hst, by rw [List.append_nil]⟩
  | append_singleton more x ih =>
    obtain ⟨l', hl', hst', hshown⟩ := ih
    obtain ⟨l₂, hl₂, hst₂, hshown₂⟩ := (valid_after _).stopped_carry hl' hst' x
    rw [← List.append_assoc, after_snoc]
    exact ⟨l₂, hl₂, hst₂, hshown₂.trans hshown⟩

theorem log_settle_ended (c : Timeline) (n : Nat) (l : Life) (j : Job) (i : Interpreter)
    (logs : List Log) : (c.settle n l j (i, logs, .ended)).log = c.log := List.append_nil _

theorem running_settle_ended (hl : c.lives n = some l) (hst : l.stopped = true) (i : Interpreter)
    (logs : List Log) : (c.settle n l j (i, logs, .ended)).Running m ↔ c.Running m := by
  by_cases hm : m = n
  · subst hm
    constructor
    · rintro ⟨l', hl', hsome, -⟩
      rw [lives_settle_self] at hl'
      cases hl'
      cases hsome
    · rintro ⟨l', hl', -, hst'⟩
      rw [hl] at hl'
      cases hl'
      rw [hst] at hst'
      cases hst'
  · simp only [Running, lives_settle_ne hm]

/-! ## Every run comes to its end -/

def workOf (l : Life) : Nat :=
  match l.job with
  | some j => j.work + 1
  | none => 0

/-- Nothing but `resume n` is done meanwhile. -/
theorem comes_to_end (c : Timeline) (n : Nat) (l : Life) (hl : c.lives n = some l) :
    ∃ k r, ((List.replicate k (Act.resume n)).foldl act c).lives n =
      some { l with job := none, reached := r } := by
  -- By induction on the work that is left, which every piece lessens.
  induction hw : workOf l using Nat.strongRecOn generalizing c l with
  | ind w ih =>
    subst hw
    cases hj : l.job with
    | none => exact ⟨0, l.reached, by rw [List.replicate_zero, List.foldl_nil, hl, ← hj]⟩
    | some j =>
      have hnext : (c.act (.resume n)).lives n =
          some (l.pass j (j.advance c.interpreter).2.2) := by
        rw [lives_act, carry, resume_of_job hl hj, lives_settle_self]
      have hless : workOf (l.pass j (j.advance c.interpreter).2.2) < workOf l := by
        have hle := Job.work_advance j c.interpreter
        cases hk : (j.advance c.interpreter).2.2.job? with
        | none => simp only [workOf, Life.pass, hk, hj]; omega
        | some k =>
          rw [Signal.work_of_job? hk] at hle
          simp only [workOf, Life.pass, hk, hj]
          omega
      obtain ⟨k, r, hend⟩ := ih _ hless (c.act (.resume n)) _ hnext rfl
      exact ⟨k + 1, r, by rw [List.replicate_succ, List.foldl_cons, hend]; rfl⟩

/-- Whatever is done to an interpreter, and in whatever order its runs go on: at most one run is
neither over nor stopped, and the interpreter is running when there is one. The runs are those that
accepted starts began. The states of each are those that it shows alone, up to some point, and all
of them once it is over; a run that was not stopped comes to that by going on. A stopped run that
goes on shows nothing and leaves the state and every other run as they are, and once there is a
newer run the interpreter as a whole. -/
theorem runs_keep_apart (h : List Act) :
    let c := after h
    (∀ m n, c.Running m → c.Running n → m = n) ∧
    (c.interpreter.isRunning = true ↔ ∃ n, c.Running n) ∧
    (∀ n, (∃ l, c.lives n = some l) ↔ ∃ k p w a, AcceptedAt h k n p w a) ∧
    (∀ k n p w a l, AcceptedAt h k n p w a → c.lives n = some l →
      c.states n <+: statesOf (alone p w a) ∧
      (l.stopped = false → l.job = none → c.states n = statesOf (alone p w a)) ∧
      (l.stopped = false → ∃ k', (after (h ++ List.replicate k' (.resume n))).states n =
        statesOf (alone p w a))) ∧
    (∀ n l, c.lives n = some l → l.job ≠ none → l.stopped = true →
      let d := after (h ++ [.resume n])
      d.interpreter.state = c.interpreter.state ∧
      d.log = c.log ∧
      (∀ m, d.Running m ↔ c.Running m) ∧
      (∀ m, m ≠ n → d.lives m = c.lives m) ∧
      (∀ m, n < m → c.lives m ≠ none → d.interpreter = c.interpreter)) := by
  have hv := valid_after h
  refine ⟨fun m n => hv.running_unique, hv.isRunning_iff, exists_life_iff h, ?_, ?_⟩
  · intro k n p w a l hk hl
    obtain ⟨l', hl', hbirth⟩ := hk.life
    rw [hl] at hl'
    cases hl'
    rw [← Life.alone_of_birth hbirth]
    refine ⟨hv.states_prefix hl, fun hst hover => hv.states_whole hl hover hst, fun hst => ?_⟩
    obtain ⟨k', r, hend⟩ := comes_to_end (after h) n l hl
    rw [← after_append] at hend
    have hwhole := (valid_after _).states_whole hend rfl hst
    exact ⟨k', hwhole⟩
  · intro n l hl hpend hst
    obtain ⟨j, hj⟩ := Option.ne_none_iff_exists'.mp hpend
    obtain ⟨logs, hres⟩ := hv.resume_of_stopped hl hj hst
    have hd : (after h).carry (.resume n) =
        (after h).settle n l j (j.gone (after h).interpreter, logs, .ended) := hres
    simp only [after_snoc, interpreter_act, log_act, lives_act, Running, hd]
    refine ⟨Job.state_gone j _, log_settle_ended .., fun m => ?_, fun m hm => lives_settle_ne hm,
      fun m hnm hm => hv.gone_of_newer hl hj hnm hm⟩
    exact running_settle_ended hl hst _ logs

end Timeline

end BlockGrid
