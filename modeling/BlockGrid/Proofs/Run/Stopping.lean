import BlockGrid.Proofs.Run.Verdicts

/-!
# BlockGrid.Proofs.Run.Stopping

What a stop does to the run in progress, wherever it comes.

* `Timeline.Seen` — the interpreter has the last state of a run, or the one it began from. It does
  while the run is in progress and no seed is set (`seen_after`).
* `state_of_idle` — an interpreter without a run in progress keeps its state until it is seeded or
  a start is accepted.
* `stops_of_idle` — and further stops do nothing to it.
* `stop_freezes`  — so after a stop nothing more is shown of the run, and the state stays where it
  was.
-/

namespace BlockGrid

/-- Seeds that fail set nothing. -/
def Act.isSeed : Act → Bool
  | .seed (.ok _) => true
  | .reset _ => true
  | _ => false

theorem Interpreter.isRunning_stop (i : Interpreter) : i.stop.isRunning = false := by
  unfold isRunning stop
  cases i.current <;> rfl

theorem Interpreter.stop_of_idle {i : Interpreter} (h : i.isRunning = false) :
    i.stop = i ∧ i.stopLogs = [] := by
  obtain ⟨current, state, accepted, lastOutcome⟩ := i
  cases current with
  | none => exact ⟨rfl, rfl⟩
  | some c =>
    obtain ⟨run, stopped, applied⟩ := c
    have hst : stopped = true := by simpa [isRunning] using h
    subst hst
    exact ⟨rfl, rfl⟩

/-- The state that a piece leaves is the one it shows, if it shows one. -/
theorem Job.Piece.state {j : Job} {i i' : Interpreter} {s : Signal} (h : Piece j i i' s) :
    (i'.state = i.state ∧ statesOf s.events = []) ∨
      ∃ b, i'.state = some b ∧ statesOf s.events = [b] := by
  cases h with
  | sleeps => exact .inl ⟨rfl, rfl⟩
  | yields => exact .inl ⟨rfl, rfl⟩
  | @moves b k => exact .inr ⟨b, rfl, rfl⟩
  | reports => exact .inl ⟨rfl, rfl⟩

namespace Timeline

open Interpreter

variable {c : Timeline} {m n k : Nat} {l : Life} {j : Job} {p : Program Tree} {w : World}
  {a : Actor}

/-! ## The state while a run is in progress -/

/-- The interpreter has the last state of run `n`, which began from `a`. -/
def Seen (c : Timeline) (n : Nat) (a : Actor) : Prop :=
  c.interpreter.state = some ((c.states n).getLastD a)

theorem Valid.seen_resume (hv : c.Valid) (hn : c.Running n) (hs : c.Seen n a) (m : Nat) :
    (c.resume m).Seen n a := by
  rcases hv.resume_cases m with ⟨-, hc⟩ | ⟨l, j, hl, hj, hcase⟩
  · rw [hc]; exact hs
  rcases hcase with ⟨-, logs, hc⟩ | ⟨-, hst, i, logs, s, hpiece, hc⟩
  · have hshown : (c.resume m).states n = c.states n := by
      rw [hc, states, shown, log_settle_ended]
      rfl
    rw [Seen, hshown, hc]
    exact (Job.state_gone j _).trans hs
  · -- Only the run in progress makes such a piece.
    have hm : m = n := hv.running_unique ⟨l, hl, by rw [hj]; rfl, hst⟩ hn
    subst hm
    have hshown : (c.resume m).states m = c.states m ++ statesOf s.events := by
      rw [hc, states, shown_settle_self, statesOf, List.filterMap_append]
      rfl
    rw [Seen, hshown, hc]
    show i.state = _
    rcases hpiece.state with ⟨hi, hev⟩ | ⟨b, hi, hev⟩
    · rw [hi, hev, List.append_nil]; exact hs
    · rw [hi, hev, List.getLastD_eq_getLast?, List.getLast?_concat]
      rfl

theorem Valid.seen_carry (hv : c.Valid) (hn : c.Running n) (hs : c.Seen n a) {x : Act}
    (hx : x.isSeed = false) : (c.carry x).Seen n a := by
  cases x with
  | start t w initial =>
    -- While a run is in progress every start is refused, before anything else is looked at.
    have hbusy : c.interpreter.admission t w initial = .ok (.error .busy) := by
      rw [admission, hv.isRunning_iff.mpr ⟨n, hn⟩, if_pos rfl]
    have hle : n ≤ c.interpreter.accepted := Nat.le_of_eq (hv.newest n hn)
    rw [Seen, states, carry, (start_frame hle t w initial).2, start_of_refused hbusy]
    exact hs
  | resume m => exact hv.seen_resume hn hs m
  | stop => exact hs
  | seed state =>
    cases state with
    | error e => exact hs
    | ok b => cases hx
  | reset w => cases hx

/-- No act brings a run back that is over or stopped. -/
theorem Valid.running_of_carry (hv : c.Valid) (hl : c.lives n = some l) {x : Act}
    (hr : (c.carry x).Running n) : c.Running n := by
  obtain ⟨l', hl', hsome, hst⟩ := hr
  cases x with
  | start t w initial =>
    rw [carry, (start_frame (hv.bounded n l hl) t w initial).1] at hl'
    exact ⟨l', hl', hsome, hst⟩
  | resume m =>
    by_cases hm : n = m
    · subst hm
      cases hj : l.job with
      | none =>
        rw [carry, resume_of_over hl hj] at hl'
        exact ⟨l', hl', hsome, hst⟩
      | some j =>
        rw [carry, resume_of_job hl hj, lives_settle_self] at hl'
        cases hl'
        exact ⟨l, hl, by rw [hj]; rfl, hst⟩
    · rw [carry, lives_resume_ne hm] at hl'
      exact ⟨l', hl', hsome, hst⟩
  | stop =>
    rw [lives_stop hl] at hl'
    cases hl'
    rw [Life.stop, show l.job.isSome = true from hsome, Bool.or_true] at hst
    cases hst
  | seed state => cases state <;> exact ⟨l', hl', hsome, hst⟩
  | reset w => exact ⟨l', hl', hsome, hst⟩

theorem seen_append {h : List Act} (hl : (after h).lives n = some l) (hs : (after h).Seen n a)
    (more : List Act) (hseed : ∀ x ∈ more, x.isSeed = false) (hr : (after (h ++ more)).Running n) :
    (after (h ++ more)).Seen n a := by
  induction more using List.reverseRecOn with
  | nil => rw [List.append_nil]; exact hs
  | append_singleton more x ih =>
    rw [← List.append_assoc, after_snoc] at hr ⊢
    obtain ⟨l', hl', -⟩ := birth_after hl more
    have hn := (valid_after _).running_of_carry hl' hr
    have hbefore := ih (fun y hy => hseed y (List.mem_append_left _ hy)) hn
    exact (valid_after _).seen_carry hn hbefore (hseed x (by simp))

/-- A run in progress is seen, by its last state, as long as no seed is set after its start. -/
theorem seen_after {h : List Act} (hk : AcceptedAt h k n p w a)
    (hseed : ∀ x ∈ h.drop (k + 1), x.isSeed = false) (hr : (after h).Running n) :
    (after h).Seen n a := by
  obtain ⟨l, hl, -⟩ := hk.life_at
  have hfirst : (after (h.take (k + 1))).Seen n a := by
    obtain ⟨rfl, hidle, hsplit⟩ := hk.split
    have hv := valid_after (h.take k)
    have hnew : ((after (h.take k)).enter p w a).Running _ := ⟨_, lives_enter_self, rfl, rfl⟩
    have hempty : ((after (h.take k)).enter p w a).shown _ = [] := hv.silent _ hv.unborn
    rw [hsplit]
    refine (valid_enter hv hidle p w a).seen_resume hnew ?_ _
    rw [Seen, states, hempty]
    rfl
  have hlast := seen_append hl hfirst (h.drop (k + 1)) hseed
  rw [List.take_append_drop] at hlast
  exact hlast hr

/-! ## The interpreter without a run in progress -/

theorem Valid.accepted_resume (hv : c.Valid) (n : Nat) :
    (c.resume n).interpreter.accepted = c.interpreter.accepted := by
  rcases hv.resume_cases n with ⟨-, hc⟩ | ⟨l, j, -, -, ⟨-, logs, hc⟩ | ⟨-, -, i, logs, s, hp, hc⟩⟩
  · rw [hc]
  · rw [hc]; exact Job.accepted_gone j _
  · rw [hc]; exact hp.facts.2.1

theorem Valid.accepted_start (hv : c.Valid) {t : Tree} {initial : Initial}
    (h : c.interpreter.admission t w initial = .ok (.ok (p, a))) :
    (c.start t w initial).interpreter.accepted = c.interpreter.accepted + 1 := by
  rw [start_of_accepted h,
    (valid_enter hv (isRunning_of_admission h) p w a).accepted_resume]
  rfl

theorem Valid.accepted_carry (hv : c.Valid) (x : Act) :
    c.interpreter.accepted ≤ (c.carry x).interpreter.accepted := by
  cases x with
  | start t w initial =>
    rcases c.start_cases t w initial with ⟨e, -, h⟩ | ⟨r, -, h⟩ | ⟨p, a, hadm, -⟩
    · exact Nat.le_of_eq (by rw [carry, h])
    · exact Nat.le_of_eq (by rw [carry, h]; rfl)
    · rw [carry, hv.accepted_start hadm]; exact Nat.le_succ _
  | resume m => exact Nat.le_of_eq (hv.accepted_resume m).symm
  | stop => exact Nat.le_refl _
  | seed state => cases state <;> exact Nat.le_refl _
  | reset w => exact Nat.le_refl _

theorem accepted_append (h more : List Act) :
    (after h).interpreter.accepted ≤ (after (h ++ more)).interpreter.accepted := by
  induction more using List.reverseRecOn with
  | nil => exact Nat.le_of_eq (by rw [List.append_nil])
  | append_singleton more x ih =>
    rw [← List.append_assoc, after_snoc]
    exact Nat.le_trans ih ((valid_after _).accepted_carry x)

theorem Valid.state_of_idle (hv : c.Valid) (hidle : c.interpreter.isRunning = false) {x : Act}
    (hx : x.isSeed = false) (hacc : (c.carry x).interpreter.accepted = c.interpreter.accepted) :
    (c.carry x).interpreter.state = c.interpreter.state := by
  cases x with
  | start t w initial =>
    rcases c.start_cases t w initial with ⟨e, -, h⟩ | ⟨r, -, h⟩ | ⟨p, a, hadm, -⟩
    · rw [carry, h]
    · rw [carry, h]; rfl
    · rw [carry, hv.accepted_start hadm] at hacc
      omega
  | resume m =>
    rcases hv.resume_cases m with ⟨-, hc⟩ | ⟨l, j, hl, hj, ⟨-, logs, hc⟩ | ⟨-, hst, -⟩⟩
    · rw [carry, hc]
    · rw [carry, hc]; exact Job.state_gone j _
    · exact absurd ⟨l, hl, by rw [hj]; rfl, hst⟩ (hv.not_running hidle m)
  | stop => rfl
  | seed state =>
    cases state with
    | error e => rfl
    | ok b => cases hx
  | reset w => cases hx

theorem Valid.idle_carry (hv : c.Valid) (hidle : c.interpreter.isRunning = false) {x : Act}
    (hacc : (c.carry x).interpreter.accepted = c.interpreter.accepted) :
    (c.carry x).interpreter.isRunning = false := by
  rw [Bool.eq_false_iff, ne_eq, (valid_carry hv x).isRunning_iff]
  rintro ⟨m, hm⟩
  cases hl : c.lives m with
  | some l => exact hv.not_running hidle m (hv.running_of_carry hl hm)
  | none =>
    obtain ⟨l, hl', -⟩ := hm
    obtain ⟨t, w, initial, p, a, rfl, hadm, -⟩ := lives_carry_of_none hl hl'
    rw [carry, hv.accepted_start hadm] at hacc
    omega

theorem Valid.stop_of_idle (hv : c.Valid) (hidle : c.interpreter.isRunning = false) :
    c.carry .stop = c := by
  have hlives : (fun m => (c.lives m).map Life.stop) = c.lives := by
    funext m
    cases hl : c.lives m with
    | none => rfl
    | some l =>
      have hstop : (l.stopped || l.job.isSome) = l.stopped := by
        cases hst : l.stopped with
        | true => rfl
        | false =>
          cases hj : l.job with
          | none => rfl
          | some j => exact absurd ⟨l, hl, by rw [hj]; rfl, hst⟩ (hv.not_running hidle m)
      rw [Option.map_some, Life.stop, hstop]
  rw [carry, (Interpreter.stop_of_idle hidle).1, hlives]

/-- While no start is accepted an interpreter stays without a run in progress, and while no seed is
set either it keeps its state. -/
theorem idle_append {h : List Act} (hidle : (after h).interpreter.isRunning = false)
    (more : List Act)
    (hacc : (after (h ++ more)).interpreter.accepted = (after h).interpreter.accepted) :
    (after (h ++ more)).interpreter.isRunning = false ∧
      ((∀ x ∈ more, x.isSeed = false) →
        (after (h ++ more)).interpreter.state = (after h).interpreter.state) := by
  induction more using List.reverseRecOn with
  | nil => rw [List.append_nil]; exact ⟨hidle, fun _ => rfl⟩
  | append_singleton more x ih =>
    rw [← List.append_assoc, after_snoc, interpreter_act] at hacc ⊢
    have hv := valid_after (h ++ more)
    have hle := accepted_append h more
    have hle' := hv.accepted_carry x
    -- The count of accepted runs never falls, so it was the same before `x`.
    obtain ⟨hstill, hstate⟩ := ih (by omega)
    refine ⟨hv.idle_carry hstill (by omega), fun hseed => ?_⟩
    rw [hv.state_of_idle hstill (hseed x (by simp)) (by omega)]
    exact hstate fun y hy => hseed y (List.mem_append_left _ hy)

theorem stops_of_idle {h : List Act} (hidle : (after h).interpreter.isRunning = false) (k : Nat) :
    after (h ++ List.replicate k .stop) = { after h with acts := (after h).acts + k } := by
  induction k with
  | zero => rw [List.replicate_zero, List.append_nil]; rfl
  | succ k ih =>
    have hstill : (after (h ++ List.replicate k .stop)).interpreter.isRunning = false := by
      rw [ih]; exact hidle
    rw [List.replicate_succ', ← List.append_assoc, after_snoc, act,
      (valid_after _).stop_of_idle hstill, ih]
    rfl

/-! ## After a stop -/

theorem Valid.cancelled_resume (hv : c.Valid) (hl : c.lives n = some l) (hj : l.job = some j)
    (hst : l.stopped = true) (hr : l.reached = false) (hn : n = c.interpreter.accepted) :
    (c.resume n).interpreter.lastOutcome = some .cancelled ∧
      ∃ l', (c.resume n).lives n = some l' ∧ l'.job = none := by
  obtain ⟨logs, hc⟩ := hv.resume_of_stopped hl hj hst
  have hheld : c.interpreter.holds j.run = true := by
    rw [hv.owned n l j hl hj, holds_iff]
    exact ⟨true, (hv.marked n true).mpr ⟨hn, l, hl, by rw [hj]; rfl, hst⟩⟩
  have hopen : j.point ≠ .leaving := by
    intro hp
    rw [((hv.keeps n l hl).leaving j hj).mp hp] at hr
    cases hr
  refine ⟨?_, l.pass j .ended, by rw [hc, lives_settle_self], rfl⟩
  rw [hc]
  show (j.gone c.interpreter).lastOutcome = _
  rw [Job.gone, if_pos hheld]
  exact if_neg hopen

/-- A stop of the run in progress, at whatever point before its verdict, with no seed set since its
start. The interpreter is not running at once, and the run has still to notice. The states of the
run stay those that it has called back, the first of those it shows alone, and it calls back no
verdict. Until another start is accepted the interpreter is not running, its state stays the last of
them if no seed is set, more stops change nothing and are not noted, and if the run goes on it is
over and was cancelled. -/
theorem stop_freezes (h more : List Act) (k n : Nat) (p : Program Tree) (w : World) (a : Actor)
    (hk : AcceptedAt h k n p w a) (hseed : ∀ x ∈ h.drop (k + 1), x.isSeed = false)
    (hrun : (after h).Running n) (hopen : verdictsOf ((after h).shown (.run n)) = []) :
    let c := after h
    let d := after (h ++ [.stop] ++ more)
    (after (h ++ [.stop])).interpreter.isRunning = false ∧
    (∃ l, (after (h ++ [.stop])).lives n = some l ∧ l.job ≠ none) ∧
    d.states n = c.states n ∧
    c.states n <+: statesOf (alone p w a) ∧
    verdictsOf (d.shown (.run n)) = [] ∧
    (d.interpreter.accepted = c.interpreter.accepted →
      d.interpreter.isRunning = false ∧
      ((∀ x ∈ more, x.isSeed = false) →
        d.interpreter.state = some ((c.states n).getLastD a)) ∧
      d.interpreter.stopLogs = [] ∧
      (∀ i, after (h ++ [.stop] ++ more ++ List.replicate i .stop) =
        { d with acts := d.acts + i }) ∧
      (∀ l, d.lives n = some l → l.job ≠ none →
        let e := after (h ++ [.stop] ++ more ++ [.resume n])
        e.interpreter.lastOutcome = some .cancelled ∧ ∃ l', e.lives n = some l' ∧ l'.job = none))
    := by
  have hv := valid_after h
  obtain ⟨l, hl, hbirth⟩ := hk.life
  have hsnoc : after (h ++ [.stop]) = (after h).act .stop := after_snoc h .stop
  have hidle : (after (h ++ [.stop])).interpreter.isRunning = false := by
    rw [hsnoc]
    exact isRunning_stop _
  have hstop : (after (h ++ [.stop])).lives n = some l.stop := by
    rw [hsnoc, lives_act, lives_stop hl]
  have hstopped : l.stop.stopped = true := by rw [Life.stop, (hrun.life hl).1, Bool.or_true]
  obtain ⟨l', hl', hst', hshown⟩ := stopped_after hstop hstopped more
  have hsame : (after (h ++ [.stop] ++ more)).shown (.run n) = (after h).shown (.run n) := by
    rw [hshown, hsnoc]; rfl
  refine ⟨hidle, ⟨l.stop, hstop, ?_⟩, by rw [states, states, hsame], ?_,
    by rw [hsame]; exact hopen, fun hacc => ?_⟩
  · exact Option.isSome_iff_ne_none.mp (hrun.life hl).1
  · rw [← Life.alone_of_birth hbirth]; exact hv.states_prefix hl
  have hacc' : (after (h ++ [.stop] ++ more)).interpreter.accepted =
      (after (h ++ [.stop])).interpreter.accepted := by rw [hacc, hsnoc]; rfl
  obtain ⟨hstill, hstate⟩ := idle_append hidle more hacc'
  refine ⟨hstill, fun hmore => ?_, (Interpreter.stop_of_idle hstill).2, stops_of_idle hstill, ?_⟩
  · rw [hstate hmore, hsnoc]
    exact seen_after hk hseed hrun
  · intro l₂ hl₂ hpend
    rw [hl'] at hl₂
    cases hl₂
    obtain ⟨j, hj⟩ := Option.ne_none_iff_exists'.mp hpend
    have hreached := (valid_after _).reached_eq_false hl' (by rw [hsame]; exact hopen)
    rw [after_snoc]
    exact (valid_after _).cancelled_resume hl' hj hst' hreached
      ((hv.newest n hrun).trans hacc.symm)

def firstStep : List Act :=
  [.start (.tuple (twoSteps.map .command)) corridor (.actor ⟨0, 0, "right", [], [], 0⟩), .resume 1]

theorem stop_freezes_firstStep :
    (after (firstStep ++ [.stop])).interpreter.isRunning = false ∧
      (after (firstStep ++ [.stop] ++ [.resume 1])).states 1 = (after firstStep).states 1 := by
  have hadm : idle.admission (.tuple (twoSteps.map .command)) corridor
      (.actor ⟨0, 0, "right", [], [], 0⟩) = .ok (.ok (twoSteps, ⟨0, 0, "right", [], [], 0⟩)) :=
    admission_actor rfl (Program.ofTree_commands twoSteps) (List.cons_ne_nil _ _) (by decide)
  have hk : AcceptedAt firstStep 0 1 twoSteps corridor ⟨0, 0, "right", [], [], 0⟩ :=
    ⟨_, _, rfl, hadm, rfl⟩
  obtain ⟨hidle, -, hstates, -⟩ := stop_freezes firstStep [.resume 1] 0 1 _ _ _ hk
    (by decide) (running_iff_any.mpr (by decide +kernel)) (by decide +kernel)
  exact ⟨hidle, hstates⟩

end Timeline

end BlockGrid
