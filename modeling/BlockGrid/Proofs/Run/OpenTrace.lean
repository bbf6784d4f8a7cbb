import BlockGrid.Proofs.Run.Wiring

/-!
# BlockGrid.Proofs.Run.OpenTrace

The verdict on a trace while it is open, as the history of its interpreter has it.

* `Timeline.Takes`   — what the open trace says of its run: no more than the refused starts until the
  run reports, then what it reported. The pieces of a run, the other acts and a refused start keep
  this (`takes_resume`, `takes_quiet`, `takes_refused`).
* `Timeline.Awaits`  — an open trace whose run is still to be started has refusals at most.
* `Timeline.Stands`  — one or the other, as the phase has it; `stands_quiet`, `stands_refused` and
  `stands_accepted` are the three ways to answer an act.
* `Takes.of_cancelled`, `Takes.of_success` — what is known of the verdict once the run is over.
-/

namespace BlockGrid

/-! ## What an act shows -/

namespace Timeline

open Interpreter

variable {c d : Timeline} {n : Nat} {refused : Bool} {v : Json} {l : Life} {j : Job}

theorem since_of_log (h : d.log = c.log) : c.since d = [] := by
  rw [since, h, List.drop_length]
  rfl

theorem since_append {s : Signal} {sender : Sender} (h : d.log = c.log ++ s.shownBy sender) :
    c.since d = s.events := by
  rw [since, h, List.drop_left, Signal.shownBy, List.map_map]
  exact List.map_id _

theorem since_settle (c : Timeline) (n : Nat) (l : Life) (j : Job)
    (r : Interpreter × List Log × Signal) : c.since (c.settle n l j r) = r.2.2.events :=
  since_append rfl

theorem start_of_unanswered {t : Tree} {w : World} {initial : Initial}
    (hx : c.answer (.start t w initial) = none) : c.start t w initial = c := by
  rcases c.start_cases t w initial with ⟨e, -, he⟩ | ⟨r, hadm, -⟩ | ⟨p, a, hadm, -⟩
  · exact he
  · rw [answer, hadm] at hx
    cases hx
  · rw [answer, hadm] at hx
    cases hx

theorem refused_of_answer {x : Act} (hx : c.answer x = some .refused) :
    ∃ (r : Refusal) (k : Nat), c.carry x =
      { c with
        interpreter := c.interpreter.concluded r.outcome
        log := c.log ++ [⟨.start k, .reported false⟩] } := by
  cases x with
  | start t w initial =>
    rcases c.start_cases t w initial with ⟨e, hadm, -⟩ | ⟨r, -, he⟩ | ⟨p, a, hadm, -⟩
    · rw [answer, hadm] at hx
      cases hx
    · exact ⟨r, c.acts, he⟩
    · rw [answer, hadm] at hx
      cases hx
  | _ => cases hx

theorem accepted_of_answer {x : Act} (hx : c.answer x = some (.accepted n)) :
    n = c.interpreter.accepted + 1 ∧ c.interpreter.isRunning = false ∧
      ∃ p w a, c.carry x = (c.enter p w a).resume n := by
  cases x with
  | start t w initial =>
    rcases c.start_cases t w initial with ⟨e, hadm, -⟩ | ⟨r, hadm, -⟩ | ⟨p, a, hadm, he⟩
    · rw [answer, hadm] at hx
      cases hx
    · rw [answer, hadm] at hx
      cases hx
    · rw [answer, hadm] at hx
      cases hx
      exact ⟨rfl, isRunning_of_admission hadm, p, w, a, he⟩
  | _ => cases hx

/-- The verdict on a trace once `es` have been recorded. -/
def judged (v : Json) (es : List Event) : Json := ((verdictsOf es).getLast?.map Json.bool).getD v

theorem judged_reported (v : Json) (b : Bool) : judged v [.reported b] = .bool b := rfl

/-- The verdict on a trace that has seen no report of a run. -/
def unreported (refused : Bool) : Json := if refused then .bool false else .null

/-- No run has anything to do any more. -/
def Over (c : Timeline) : Prop := ∀ m l, c.lives m = some l → l.job = none

/-- The trace of run `n`, with verdict `v`, among whose starts one was `refused` or none. -/
structure Takes (c : Timeline) (n : Nat) (refused : Bool) (v : Json) : Prop where
  born : c.lives n ≠ none
  newest : n = c.interpreter.accepted
  alone : ∀ m l, m ≠ n → c.lives m = some l → l.job = none
  silent : ∀ l, c.lives n = some l → l.reached = false → v = unreported refused
  ended : ∀ l, c.lives n = some l → l.reached = false → l.job = none →
    c.interpreter.lastOutcome ≠ some .success
  told : ∀ l, c.lives n = some l → l.reached = true →
    c.interpreter.lastOutcome ≠ some .cancelled ∧
      (c.interpreter.lastOutcome = some .success → v = .bool true)

theorem Refusal.outcome_ne (r : Refusal) : r.outcome ≠ .success ∧ r.outcome ≠ .cancelled := by
  cases r <;> exact ⟨nofun, nofun⟩

theorem takes_of_log (hlog : d.log = c.log) (h : d.Takes n refused v) :
    d.Takes n refused (judged v (c.since d)) := by
  rw [since_of_log hlog]
  exact h

/-- The last piece of the run that is recorded. -/
theorem takes_gone (hv : c.Valid) (h : c.Takes n refused v) (hl : c.lives n = some l)
    (hj : l.job = some j) (hgone : j.point = .leaving ∨ l.stopped = true) {logs : List Log}
    (hc : c.resume n = c.settle n l j (j.gone c.interpreter, logs, .ended)) :
    (c.resume n).Takes n refused v := by
  have hself : (c.resume n).lives n = some (l.pass j .ended) := by rw [hc, lives_settle_self]
  have hlast : (c.resume n).interpreter = j.gone c.interpreter := by rw [hc]; rfl
  have hleaving := (hv.keeps n l hl).leaving j hj
  have hreached : ∀ b, (l.pass j .ended).reached = b → l.reached = b := by
    intro b hb
    cases b with
    | true => exact hleaving.mp (hv.reached_of_gone hl hj hgone hb)
    | false =>
      simp only [Life.pass, Bool.or_eq_false_iff] at hb
      exact hb.1
  refine ⟨by rw [hself]; exact Option.some_ne_none _, ?_, ?_, ?_, ?_, ?_⟩
  · rw [hlast, Job.accepted_gone]
    exact h.newest
  · intro m l' hm hl'
    rw [lives_resume_ne hm] at hl'
    exact h.alone m l' hm hl'
  · intro l' hl' hr
    rw [hself] at hl'
    cases hl'
    exact h.silent l hl (hreached _ hr)
  · intro l' hl' hr _
    rw [hself] at hl'
    cases hl'
    have hopen := hreached _ hr
    have hst : l.stopped = true := by
      refine hgone.resolve_left fun hp => ?_
      rw [hleaving.mp hp] at hopen
      cases hopen
    rw [(hv.cancelled_resume hl hj hst hopen h.newest).1]
    intro he
    cases he
  · intro l' hl' hr
    rw [hself] at hl'
    cases hl'
    have hdone := hreached _ hr
    rw [hlast, Job.lastOutcome_gone (hleaving.mpr hdone)]
    exact h.told l hl hdone

/-- A piece of the run that is recorded. Only its report is a verdict. -/
theorem takes_piece (hv : c.Valid) (h : c.Takes n refused v) (hl : c.lives n = some l)
    (hj : l.job = some j) (hp : j.point ≠ .leaving) (hst : l.stopped = false) {i : Interpreter}
    {s : Signal} (hpiece : Job.Piece j c.interpreter i s) (logs : List Log) :
    (c.settle n l j (i, logs, s)).Takes n refused (judged v s.events) := by
  obtain ⟨-, hacc, k, hk, -⟩ := hpiece.facts
  have hopen : l.reached = false := by
    cases hr : l.reached with
    | false => rfl
    | true => exact absurd (((hv.keeps n l hl).leaving j hj).mpr hr) hp
  have hreached : (l.pass j s).reached = j.isAtEnd := by simp [Life.pass, hopen, hst]
  have hjob : (l.pass j s).job = some k := hk
  refine ⟨by rw [lives_settle_self]; exact Option.some_ne_none _, h.newest.trans hacc.symm,
    ?_, ?_, ?_, ?_⟩
  · intro m l' hm hl'
    rw [lives_settle_ne hm] at hl'
    exact h.alone m l' hm hl'
  · intro l' hl' hr
    rw [lives_settle_self] at hl'
    cases hl'
    rw [hreached] at hr
    cases hpiece with
    | sleeps => exact h.silent l hl hopen
    | yields => exact h.silent l hl hopen
    | moves => exact h.silent l hl hopen
    | reports hend => rw [hend] at hr; cases hr
  · intro l' hl' _ hnone
    rw [lives_settle_self] at hl'
    cases hl'
    cases hjob.symm.trans hnone
  · intro l' hl' hr
    rw [lives_settle_self] at hl'
    cases hl'
    rw [hreached] at hr
    cases hpiece with
    | sleeps hgoes => rw [hr] at hgoes; cases hgoes
    | yields hgoes => rw [hr] at hgoes; cases hgoes
    | moves hgoes => rw [hr] at hgoes; cases hgoes
    | reports =>
      have hending := j.world.ending_ne_cancelled j.actor j.motions
      constructor
      · intro he
        exact hending (Option.some.inj he)
      · intro he
        have hsuccess : j.ending = .success := Option.some.inj he
        rw [Signal.events, judged_reported, hsuccess]
        rfl

theorem takes_resume (hv : c.Valid) (h : c.Takes n refused v) (m : Nat) :
    (c.resume m).Takes n refused (judged v (c.since (c.resume m))) := by
  rcases hv.resume_cases m with ⟨-, hc⟩ | ⟨l, j, hl, hj, hcase⟩
  · rw [hc]
    exact takes_of_log rfl h
  -- The runs before the one that is recorded are over.
  have hm : m = n := by
    by_contra hne
    rw [h.alone m l hne hl] at hj
    cases hj
  subst hm
  rcases hcase with ⟨hgone, logs, hc⟩ | ⟨hp, hst, i, logs, s, hpiece, hc⟩
  · have hsince : c.since (c.resume m) = [] := by rw [hc, since_settle]; rfl
    rw [hsince]
    exact takes_gone hv h hl hj hgone hc
  · rw [hc, since_settle]
    exact takes_piece hv h hl hj hp hst hpiece logs

/-- A start that is refused leaves its failure, and an outcome that no run has. -/
theorem takes_refused (h : c.Takes n refused v) (r : Refusal) (log : List Shown) :
    ({ c with interpreter := c.interpreter.concluded r.outcome, log := log } : Timeline).Takes n true
      (.bool false) := by
  obtain ⟨hsuccess, hcancelled⟩ := Refusal.outcome_ne r
  refine ⟨h.born, h.newest, h.alone, fun _ _ _ => rfl, ?_, ?_⟩
  · intro _ _ _ _ he
    exact hsuccess (Option.some.inj he)
  · intro _ _ _
    exact ⟨fun he => hcancelled (Option.some.inj he), fun he => absurd (Option.some.inj he) hsuccess⟩

/-- A run has been entered, and the trace that waited has seen no report. -/
theorem takes_enter (hover : c.Over) (refused : Bool) (p : Program Tree) (w : World) (a : Actor) :
    (c.enter p w a).Takes (c.interpreter.accepted + 1) refused (unreported refused) where
  born := by rw [lives_enter_self]; exact Option.some_ne_none _
  newest := rfl
  alone m l hm hl := hover m l ((lives_enter_ne hm).symm.trans hl)
  silent _ _ _ := rfl
  ended l hl _ hnone := by
    rw [lives_enter_self] at hl
    cases hl
    cases hnone
  told l hl hr := by
    rw [lives_enter_self] at hl
    cases hl
    cases hr

theorem takes_stop (h : c.Takes n refused v) : (c.carry .stop).Takes n refused v := by
  have hlives : ∀ m l', (c.carry .stop).lives m = some l' →
      ∃ l, c.lives m = some l ∧ l.job = l'.job ∧ l.reached = l'.reached := by
    intro m l' hl'
    obtain ⟨l, hl, rfl⟩ := Option.map_eq_some_iff.mp hl'
    exact ⟨l, hl, rfl, rfl⟩
  refine ⟨fun hnone => h.born (Option.map_eq_none_iff.mp hnone), h.newest, ?_, ?_, ?_, ?_⟩
  · intro m l' hm hl'
    obtain ⟨l, hl, hjob, -⟩ := hlives m l' hl'
    exact hjob.symm.trans (h.alone m l hm hl)
  · intro l' hl' hr
    obtain ⟨l, hl, -, hreached⟩ := hlives n l' hl'
    exact h.silent l hl (hreached.trans hr)
  · intro l' hl' hr hnone
    obtain ⟨l, hl, hjob, hreached⟩ := hlives n l' hl'
    exact h.ended l hl (hreached.trans hr) (hjob.trans hnone)
  · intro l' hl' hr
    obtain ⟨l, hl, -, hreached⟩ := hlives n l' hl'
    exact h.told l hl (hreached.trans hr)

/-- An act that is no start, or whose start ends in an error. -/
theorem takes_quiet (hv : c.Valid) (h : c.Takes n refused v) {x : Act} (hx : c.answer x = none) :
    (c.carry x).Takes n refused (judged v (c.since (c.carry x))) := by
  cases x with
  | start t w initial =>
    rw [carry, start_of_unanswered hx]
    exact takes_of_log rfl h
  | resume m => exact takes_resume hv h m
  | stop => exact takes_of_log rfl (takes_stop h)
  | seed state =>
    cases state with
    | error e => exact takes_of_log rfl h
    | ok a => exact takes_of_log rfl ⟨h.born, h.newest, h.alone, h.silent, h.ended, h.told⟩
  | reset w => exact takes_of_log rfl ⟨h.born, h.newest, h.alone, h.silent, h.ended, h.told⟩

/-! ## Between runs -/

theorem Over.resume (h : c.Over) (m : Nat) : c.resume m = c := by
  cases hl : c.lives m with
  | none => exact resume_of_none hl
  | some l => exact resume_of_over hl (h m l hl)

/-- An act that is no start shows nothing and leaves the outcome. -/
theorem Over.quiet (h : c.Over) {x : Act} (hx : c.answer x = none) :
    (c.carry x).Over ∧ (c.carry x).log = c.log ∧
      (c.carry x).interpreter.lastOutcome = c.interpreter.lastOutcome := by
  cases x with
  | start t w initial =>
    rw [carry, start_of_unanswered hx]
    exact ⟨h, rfl, rfl⟩
  | resume m =>
    rw [carry, h.resume m]
    exact ⟨h, rfl, rfl⟩
  | stop =>
    refine ⟨fun m l' hl' => ?_, rfl, rfl⟩
    obtain ⟨l, hl, rfl⟩ := Option.map_eq_some_iff.mp hl'
    exact h m l hl
  | seed state => cases state <;> exact ⟨h, rfl, rfl⟩
  | reset w => exact ⟨h, rfl, rfl⟩

/-- A trace that waits for its run, with verdict `v`. Only refusals have been answered. -/
structure Awaits (c : Timeline) (refused : Bool) (v : Json) : Prop where
  rests : c.Over
  verdict : v = unreported refused
  outcome : refused = true → c.interpreter.lastOutcome ≠ some .success ∧
    c.interpreter.lastOutcome ≠ some .cancelled

/-- The failure of a refused start is the verdict for now. -/
theorem judged_of_refused {x : Act} (hx : c.answer x = some .refused) :
    judged v (c.since (c.carry x)) = .bool false := by
  obtain ⟨r, k, hc⟩ := refused_of_answer hx
  have hlog : (c.carry x).log = c.log ++ (Signal.reported false none).shownBy (.start k) := by
    rw [hc]
    rfl
  rw [since_append hlog]
  rfl

/-! ## The open trace -/

/-- A trace with verdict `v`, as the phase has it. -/
def Stands (c : Timeline) (v : Json) : Phase → Prop
  | .closed => c.Over
  | .begun refused => c.Awaits refused v
  | .taken n refused => c.Takes n refused v

theorem stands_quiet (hv : c.Valid) {ph : Phase} (h : c.Stands v ph) {x : Act}
    (hx : c.answer x = none) : (c.carry x).Stands (judged v (c.since (c.carry x))) ph := by
  cases ph with
  | closed => exact (Over.quiet h hx).1
  | begun refused =>
    obtain ⟨hover, hlog, hlast⟩ := h.rests.quiet hx
    rw [since_of_log hlog]
    exact ⟨hover, h.verdict, by rw [hlast]; exact h.outcome⟩
  | taken n refused => exact takes_quiet hv h hx

theorem stands_refused {ph : Phase} (h : c.Stands v ph) {x : Act} (hx : c.answer x = some .refused) :
    (c.carry x).Stands (judged v (c.since (c.carry x))) ph.refuse := by
  rw [judged_of_refused hx]
  obtain ⟨r, k, hc⟩ := refused_of_answer hx
  rw [hc]
  cases ph with
  | closed => exact h
  | begun refused =>
    obtain ⟨hsuccess, hcancelled⟩ := Refusal.outcome_ne r
    exact ⟨h.rests, rfl, fun _ => ⟨fun he => hsuccess (Option.some.inj he),
      fun he => hcancelled (Option.some.inj he)⟩⟩
  | taken n refused => exact takes_refused h r _

theorem stands_accepted (hv : c.Valid) (h : c.Stands v (.begun refused)) {x : Act}
    (hx : c.answer x = some (.accepted n)) :
    (c.carry x).Stands (judged v (c.since (c.carry x))) (.taken n refused) := by
  obtain ⟨rfl, hidle, p, w, a, hc⟩ := accepted_of_answer hx
  have hentered := takes_enter h.rests refused p w a
  rw [← h.verdict] at hentered
  rw [hc]
  exact takes_resume (valid_enter hv hidle p w a) hentered _

/-- A run that was cancelled has not reported. -/
theorem Takes.of_cancelled (h : c.Takes n refused v)
    (hlast : c.interpreter.lastOutcome = some .cancelled) : v = unreported refused := by
  obtain ⟨l, hl⟩ := Option.ne_none_iff_exists'.mp h.born
  cases hr : l.reached with
  | false => exact h.silent l hl hr
  | true => exact absurd hlast (h.told l hl hr).1

/-- A run that is over with a success has reported it. -/
theorem Takes.of_success (h : c.Takes n refused v)
    (hlast : c.interpreter.lastOutcome = some .success)
    (hover : (c.lives n).all (·.job.isNone) = true) : v = .bool true := by
  obtain ⟨l, hl⟩ := Option.ne_none_iff_exists'.mp h.born
  rw [hl, Option.all_some, Option.isNone_iff_eq_none] at hover
  cases hr : l.reached with
  | false => exact absurd hlast (h.ended l hl hr hover)
  | true => exact (h.told l hl hr).2 hlast

theorem Takes.rests (h : c.Takes n refused v) (hover : (c.lives n).all (·.job.isNone) = true) :
    c.Over := by
  intro m l hl
  by_cases hm : m = n
  · subst hm
    rw [hl, Option.all_some, Option.isNone_iff_eq_none] at hover
    exact hover
  · exact h.alone m l hm hl

end Timeline

end BlockGrid
