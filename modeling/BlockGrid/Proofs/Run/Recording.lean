import BlockGrid.Proofs.Run.Replay
import BlockGrid.Proofs.Trace.Soundness

/-!
# BlockGrid.Proofs.Run.Recording

One run on an interpreter and the recorder that is wired to it.

* `Recorder.recording` — the trace that a recorder takes of some events; `recording_eq` says what is
  in it.
* `Timeline.Solo`  — since some moment only one run has shown anything. If it has reported, the last
  outcome is its own; this is why an outcome of its kind never meets a verdict it cannot have.
* `solo_resume`, `solo_carry` — an act that is no start keeps this, whichever run it is about.
* `solo_append`    — so it holds from the start of the run on.
* `recorded_sound` — the check finds nothing in the trace, whenever it is closed.
-/

namespace BlockGrid

/-- The trace of some events, from its beginning to its outcome. -/
def Recorder.recording (r : Recorder) (w : World) (a : Actor) (program : Json) (es : List Event)
    (o : Option Outcome) : Option (Trace Actor) :=
  (((r.begin w.challengeId (some a) program).observeAll es).2.finish (Trace.outcomeOf o)).1

theorem Recorder.recording_eq (r : Recorder) (w : World) (a : Actor) (program : Json)
    (es : List Event) (o : Option Outcome) :
    r.recording w a program es o = some
      { (Trace.new w.challengeId (some a) program).taking es with
        outcome := Trace.outcomeOf o } := by
  have hcurrent : ((r.begin w.challengeId (some a) program).observeAll es).2.current =
      some ((Trace.new w.challengeId (some a) program).taking es) := current_observeAll rfl es
  rw [recording, finish, hcurrent]

theorem World.ending_ne_cancelled (w : World) (a : Actor) (ms : List Motion) :
    w.ending a ms ≠ .cancelled := by
  unfold ending outcome
  split
  · split <;> decide
  · decide

/-- A run that goes after its report leaves the outcome. -/
theorem Job.lastOutcome_gone {j : Job} (h : j.point = .leaving) (i : Interpreter) :
    (j.gone i).lastOutcome = i.lastOutcome := by
  by_cases hh : i.holds j.run = true
  · rw [gone, if_pos hh]
    exact if_pos h
  · rw [gone, if_neg hh]

def Act.isStart : Act → Bool
  | .start .. => true
  | _ => false

namespace Timeline

open Interpreter

/-- Since `base` had been shown, only run `n` has shown anything. -/
structure Solo (base : List Shown) (n : Nat) (c : Timeline) : Prop where
  born : c.lives n ≠ none
  newest : n = c.interpreter.accepted
  log : c.log = base ++ (c.shown (.run n)).map (Shown.mk (.run n))
  outcome : ∀ l, c.lives n = some l → l.reached = true →
    ∃ o, c.interpreter.lastOutcome = some o ∧ o ≠ .cancelled

variable {c : Timeline} {base : List Shown} {n m : Nat} {l : Life} {j : Job}

/-- A run that goes on after its report, or after a stop, is as far as it was. -/
theorem Valid.reached_of_gone (hv : c.Valid) (hl : c.lives n = some l) (hj : l.job = some j)
    (hgone : j.point = .leaving ∨ l.stopped = true) (hr : (l.pass j .ended).reached = true) :
    j.point = .leaving := by
  have hreached : l.reached = true := by
    rcases hgone with hp | hst
    · exact ((hv.keeps n l hl).leaving j hj).mp hp
    · simpa [Life.pass, hst] using hr
  exact ((hv.keeps n l hl).leaving j hj).mpr hreached

/-- The last piece of any run. -/
theorem solo_gone (hv : c.Valid) (hs : c.Solo base n) (hl : c.lives m = some l)
    (hj : l.job = some j) (hgone : j.point = .leaving ∨ l.stopped = true) (logs : List Log) :
    (c.settle m l j (j.gone c.interpreter, logs, .ended)).Solo base n := by
  have hlog := c.log_settle_ended m l j (j.gone c.interpreter) logs
  have hshown : (c.settle m l j (j.gone c.interpreter, logs, .ended)).shown (.run n) =
      c.shown (.run n) := by rw [shown, hlog]; rfl
  refine ⟨?_, ?_, by rw [hlog, hshown]; exact hs.log, ?_⟩
  · by_cases hm : n = m
    · subst hm
      rw [lives_settle_self]
      exact Option.some_ne_none _
    · rw [lives_settle_ne hm]
      exact hs.born
  · exact hs.newest.trans (Job.accepted_gone j _).symm
  · intro l' hl' hr
    by_cases hm : n = m
    · subst hm
      rw [lives_settle_self] at hl'
      cases hl'
      have hleaving := hv.reached_of_gone hl hj hgone hr
      have hreached : l.reached = true := ((hv.keeps n l hl).leaving j hj).mp hleaving
      obtain ⟨o, ho, hne⟩ := hs.outcome l hl hreached
      exact ⟨o, (Job.lastOutcome_gone hleaving _).trans ho, hne⟩
    · -- An older run has nothing to let go of.
      have hle := hv.bounded m l hl
      have hnewer : m < n := by
        have := hs.newest
        omega
      rw [lives_settle_ne hm] at hl'
      obtain ⟨o, ho, hne⟩ := hs.outcome l' hl' hr
      refine ⟨o, ?_, hne⟩
      show (j.gone c.interpreter).lastOutcome = _
      rw [hv.gone_of_newer hl hj hnewer hs.born]
      exact ho

/-- A piece of the run in progress. -/
theorem solo_piece (hv : c.Valid) (hs : c.Solo base n) (hl : c.lives n = some l)
    (hj : l.job = some j) (hp : j.point ≠ .leaving) (hst : l.stopped = false) {i : Interpreter}
    {s : Signal} (hpiece : Job.Piece j c.interpreter i s) (logs : List Log) :
    (c.settle n l j (i, logs, s)).Solo base n := by
  obtain ⟨-, hacc, -⟩ := hpiece.facts
  refine ⟨by rw [lives_settle_self]; exact Option.some_ne_none _, hs.newest.trans hacc.symm, ?_, ?_⟩
  · rw [shown_settle_self, List.map_append, ← List.append_assoc, ← hs.log]
    rfl
  · intro l' hl' hr
    rw [lives_settle_self] at hl'
    cases hl'
    have hopen : l.reached = false := by
      cases hreached : l.reached with
      | false => rfl
      | true => exact absurd (((hv.keeps n l hl).leaving j hj).mpr hreached) hp
    have hend : j.isAtEnd = true := by simpa [Life.pass, hopen, hst] using hr
    cases hpiece with
    | reports => exact ⟨j.ending, rfl, j.world.ending_ne_cancelled j.actor j.motions⟩
    | sleeps hgoes => rw [hend] at hgoes; cases hgoes
    | yields hgoes => rw [hend] at hgoes; cases hgoes
    | moves hgoes => rw [hend] at hgoes; cases hgoes

theorem solo_resume (hv : c.Valid) (hs : c.Solo base n) (m : Nat) : (c.resume m).Solo base n := by
  rcases hv.resume_cases m with ⟨-, hc⟩ | ⟨l, j, hl, hj, hcase⟩
  · rw [hc]; exact hs
  rcases hcase with ⟨hgone, logs, hc⟩ | ⟨hp, hst, i, logs, s, hpiece, hc⟩
  · rw [hc]
    exact solo_gone hv hs hl hj hgone logs
  · have hm : m = n := (hv.newest m ⟨l, hl, by rw [hj]; rfl, hst⟩).trans hs.newest.symm
    subst hm
    rw [hc]
    exact solo_piece hv hs hl hj hp hst hpiece logs

theorem solo_carry (hv : c.Valid) (hs : c.Solo base n) {x : Act} (hx : x.isStart = false) :
    (c.carry x).Solo base n := by
  cases x with
  | start t w initial => cases hx
  | resume m => exact solo_resume hv hs m
  | stop =>
    refine ⟨?_, hs.newest, hs.log, ?_⟩
    · intro hnone
      exact hs.born (Option.map_eq_none_iff.mp hnone)
    · intro l' hl' hr
      obtain ⟨l, hl, rfl⟩ := Option.map_eq_some_iff.mp hl'
      exact hs.outcome l hl hr
  | seed state => cases state <;> exact ⟨hs.born, hs.newest, hs.log, hs.outcome⟩
  | reset w => exact ⟨hs.born, hs.newest, hs.log, hs.outcome⟩

theorem solo_append {h : List Act} (hs : (after h).Solo base n) (more : List Act)
    (hmore : ∀ x ∈ more, x.isStart = false) : (after (h ++ more)).Solo base n := by
  induction more using List.reverseRecOn with
  | nil => rw [List.append_nil]; exact hs
  | append_singleton more x ih =>
    have hbefore := ih fun y hy => hmore y (List.mem_append_left _ hy)
    have hcarry := solo_carry (valid_after _) hbefore (hmore x (by simp))
    rw [← List.append_assoc, after_snoc]
    exact ⟨hcarry.born, hcarry.newest, hcarry.log, hcarry.outcome⟩

/-- A run that has been entered has shown nothing. -/
theorem solo_enter (hv : c.Valid) (p : Program Tree) (w : World) (a : Actor) :
    (c.enter p w a).Solo c.log (c.interpreter.accepted + 1) where
  born := by rw [lives_enter_self]; exact Option.some_ne_none _
  newest := rfl
  log := by
    have hnothing : (c.enter p w a).shown (.run (c.interpreter.accepted + 1)) = [] :=
      hv.silent _ hv.unborn
    rw [hnothing]
    exact (List.append_nil _).symm
  outcome l hl hr := by
    rw [lives_enter_self] at hl
    cases hl
    cases hr

/-! ## The trace of the run -/

/-- Whoever records what is shown after `base` gets a trace of all its states in order, in which the
check finds nothing. -/
def Sound (c : Timeline) (base : List Shown) (w : World) (a : Actor) : Prop :=
  ∃ log, c.log = base ++ log ∧ ∀ (r : Recorder) (program : Json), ∃ t,
    r.recording w a program (log.map Shown.event) c.interpreter.lastOutcome = some t ∧
    t.loose.check w.bounds = .ok [] ∧ t.states = statesOf (log.map Shown.event)

variable {p : Program Tree} {w : World} {a : Actor}

theorem sound_of_solo (hv : c.Valid) (hs : c.Solo base n) (hl : c.lives n = some l)
    (hbirth : l.birth = (p, w, a)) (htidy : w.Tidy a) : c.Sound base w a := by
  obtain rfl : l.program = p := congrArg Prod.fst hbirth
  obtain rfl : l.world = w := congrArg (·.2.1) hbirth
  obtain rfl : l.origin = a := congrArg (·.2.2) hbirth
  have hevents : ((c.shown (.run n)).map (Shown.mk (.run n))).map Shown.event =
      c.shown (.run n) := by
    rw [List.map_map]
    exact List.map_id _
  refine ⟨_, hs.log, fun r program => ⟨_, r.recording_eq .., ?_, ?_⟩⟩
  · rw [hevents]
    have hpath : c.states n <+: l.world.path l.origin (walked l.program) := by
      have hprefix := hv.states_prefix hl
      rw [statesOf_alone, Life.script, statesOf_script] at hprefix
      exact hprefix
    refine Trace.check_eq_nil (o := c.interpreter.lastOutcome) htidy rfl hpath rfl ?_
    show ((verdictsOf (c.shown (.run n))).getLast?.map Json.bool).getD .null = .null ∨ _
    rw [verdictsOf_shown hv hl]
    cases hr : l.reached with
    | false => exact .inl rfl
    | true =>
      obtain ⟨o, ho, hne⟩ := hs.outcome l hl hr
      refine .inr ?_
      rw [ho]
      exact fun he => hne (Option.some.inj he)
  · rfl

/-- A start that is refused shows one failure, with an outcome of its own. -/
theorem sound_of_refused {r : Refusal} {t : Tree} {initial : Initial}
    (h : c.interpreter.admission t w initial = .ok (.error r)) (htidy : w.Tidy a) :
    (c.start t w initial).Sound c.log w a := by
  rw [start_of_refused h]
  refine ⟨_, rfl, fun recorder program => ⟨_, recorder.recording_eq .., ?_, rfl⟩⟩
  have hempty : ([] : List Actor) <+: w.path a [] := List.nil_prefix
  refine Trace.check_eq_nil (o := some r.outcome) htidy rfl hempty rfl (.inr ?_)
  cases r <;> exact fun he => nomatch he

/-- What has nothing in it, or is no program, is refused. -/
theorem refused_of_nothing {i : Interpreter} {t : Tree} {initial : Initial}
    (hidle : i.isRunning = false) (hread : ∀ text, Program.ofTree t ≠ .error (.badNumeral text))
    (hnothing : ∀ p, Program.ofTree t = .ok p → p = []) :
    ∃ r, i.admission t w initial = .ok (.error r) := by
  cases ht : Program.ofTree t with
  | error e =>
    cases e with
    | notSequence kind => exact ⟨.malformed kind, by simp [admission, hidle, ht]⟩
    | badNumeral text => exact absurd ht (hread text)
  | ok p =>
    obtain rfl := hnothing p ht
    exact ⟨.empty, by simp [admission, hidle, ht]⟩

/-- An accepted start is the first piece of a run that is alone from then on. -/
theorem solo_start {h : List Act} {t : Tree} {initial : Initial}
    (hadm : (after h).interpreter.admission t w initial = .ok (.ok (p, a))) :
    (after (h ++ [.start t w initial])).Solo (after h).log
      ((after h).interpreter.accepted + 1) := by
  have hv := valid_after h
  have hentered := valid_enter hv (isRunning_of_admission hadm) p w a
  have hstarted := solo_resume hentered (solo_enter hv p w a) ((after h).interpreter.accepted + 1)
  rw [← start_of_accepted hadm] at hstarted
  rw [after_snoc]
  exact ⟨hstarted.born, hstarted.newest, hstarted.log, hstarted.outcome⟩

/-- The record of a start on an idle interpreter is sound: at once if the start is refused, else at
every moment of the run, whatever happens as long as nothing else is started, and at its end, which
it comes to. -/
theorem recorded_sound (h more : List Act) (t : Tree) (w : World) (a : Actor)
    (hidle : (after h).interpreter.isRunning = false)
    (hread : ∀ text, Program.ofTree t ≠ .error (.badNumeral text)) (hin : w.contains a = true)
    (hdistinct : a.collected.Nodup) (hmore : ∀ x ∈ more, x.isStart = false) :
    let begun := h ++ [.start t w (.actor a)]
    let n := (after h).interpreter.accepted + 1
    ((∀ p, Program.ofTree t = .ok p → p = []) → (after begun).Sound (after h).log w a) ∧
    (∀ p, Program.ofTree t = .ok p → p ≠ [] →
      (after (begun ++ more)).Sound (after h).log w a ∧
      ∃ k, let last := after (begun ++ more ++ List.replicate k (.resume n))
        (∃ l, last.lives n = some l ∧ l.job = none) ∧ last.Sound (after h).log w a) := by
  have htidy : w.Tidy a := ⟨hin, hdistinct⟩
  constructor
  · intro hnothing
    obtain ⟨r, hrefused⟩ : ∃ r, (after h).interpreter.admission t w (.actor a) = .ok (.error r) :=
      refused_of_nothing hidle hread hnothing
    obtain ⟨log, hlog, hsound⟩ := sound_of_refused hrefused htidy
    rw [after_snoc]
    exact ⟨log, hlog, hsound⟩
  · intro p hp hne
    have hadm := admission_actor hidle hp hne hin
    have hk : AcceptedAt (h ++ [.start t w (.actor a)]) h.length
        ((after h).interpreter.accepted + 1) p w a :=
      ⟨t, .actor a, by simp, by rw [List.take_left]; exact hadm, by rw [List.take_left]⟩
    have hsolo := solo_start hadm
    obtain ⟨l, hl, hbirth⟩ := hk.life
    -- What is sound at any moment of the run is sound at its end.
    have hsound : ∀ acts, (∀ x ∈ acts, x.isStart = false) →
        (after (h ++ [.start t w (.actor a)] ++ acts)).Sound (after h).log w a := by
      intro acts hacts
      obtain ⟨l', hl', hbirth'⟩ := birth_after hl acts
      exact sound_of_solo (valid_after _) (solo_append hsolo acts hacts) hl' (hbirth'.trans hbirth)
        htidy
    refine ⟨hsound more hmore, ?_⟩
    obtain ⟨l', hl', -⟩ := birth_after hl more
    obtain ⟨k, r, hover⟩ := comes_to_end _ _ l' hl'
    rw [← after_append] at hover
    refine ⟨k, ⟨_, hover, rfl⟩, ?_⟩
    rw [List.append_assoc _ more]
    refine hsound _ fun x hx => ?_
    rcases List.mem_append.mp hx with hx | hx
    · exact hmore x hx
    · rw [List.eq_of_mem_replicate hx]
      rfl

/-- A run to the end of the corridor that is stopped before its first step. -/
theorem recorded_sound_corridor :
    idle.isRunning = false ∧ (∀ text, Program.ofTree twoStepsTree ≠ .error (.badNumeral text)) ∧
      corridor.contains corridor.reset = true ∧ corridor.reset.collected.Nodup ∧
      (after [.start twoStepsTree corridor (.actor corridor.reset), .stop]).Sound [] corridor
        corridor.reset ∧
      ∃ k, let last := after ([.start twoStepsTree corridor (.actor corridor.reset), .stop] ++
          List.replicate k (.resume 1))
        (∃ l, last.lives 1 = some l ∧ l.job = none) ∧ last.Sound [] corridor corridor.reset := by
  have hread : ∀ text, Program.ofTree twoStepsTree ≠ .error (.badNumeral text) := by
    intro text he
    rw [ofTree_twoStepsTree] at he
    cases he
  have hin : corridor.contains corridor.reset = true := corridor.contains_reset
  have hdistinct : corridor.reset.collected.Nodup := List.nodup_nil
  obtain ⟨hstopped, hover⟩ := (recorded_sound [] [.stop] twoStepsTree corridor corridor.reset rfl
    hread hin hdistinct (by decide)).2 _ ofTree_twoStepsTree (List.cons_ne_nil _ _)
  exact ⟨rfl, hread, hin, hdistinct, hstopped, hover⟩

end Timeline

end BlockGrid
