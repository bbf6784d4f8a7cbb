import BlockGrid.Proofs.Run.OpenTrace

/-!
# BlockGrid.Proofs.Run.Pairing

Outcomes and verdicts of the traces that a wired recorder has taken.

* `Wired.Sound`      — what holds of an interpreter and its recorder at every moment of an orderly
  history; `sound_of_orderly`.
* `trace_of_orderly` — a trace with a success has a positive verdict. One that was cancelled has none,
  unless a start was refused while it was open: then it has that start's failure.
-/

namespace BlockGrid

/-! ## The recorder -/

namespace Recorder

variable {r : Recorder} {T : Trace Actor}

/-- No callback ends a trace. -/
theorem closed_observeAll (r : Recorder) (es : List Event) :
    (r.observeAll es).2.closed = r.closed := by
  have htarget : ∀ r : Recorder, r.target.1.closed = r.closed := by
    intro r
    unfold target
    cases hc : r.current with
    | some T => rfl
    | none => simp [begin, traces, hc]
  have hobserve : ∀ (r : Recorder) (e : Event), (r.observe e).2.closed = r.closed := by
    intro r e
    cases e with
    | moved a => exact htarget r
    | reported b => exact htarget r
    | _ => rfl
  induction es generalizing r with
  | nil => rfl
  | cons e es ih => exact (ih (r.observe e).2).trans (hobserve r e)

/-- A trace has no outcome as long as it is open. -/
def Unfinished (r : Recorder) : Prop := ∀ T, r.current = some T → T.outcome = .null

theorem unfinished_observeAll (h : r.Unfinished) (es : List Event) :
    (r.observeAll es).2.Unfinished := by
  have hobserve : ∀ {r : Recorder}, r.Unfinished → ∀ e, (r.observe e).2.Unfinished := by
    intro r hr e
    have htarget : r.target.2.outcome = .null := by
      unfold target
      cases hc : r.current with
      | some T => exact hr T hc
      | none => rfl
    cases e with
    | moved a =>
      intro T hT
      cases hT
      exact htarget
    | reported b =>
      intro T hT
      cases hT
      exact htarget
    | _ => exact hr
  induction es generalizing r with
  | nil => exact h
  | cons e es ih => exact ih (hobserve h e)

end Recorder

/-! ## Orderly histories -/

/-- The calls since the beginning of a trace that has no outcome yet. -/
def Opened (ds : List Call) (T : Trace Actor) : Prop :=
  T.outcome = .null ∧ ∃ (before : List Call) (acts : List Act),
    ds = before ++ .begin T.challengeId T.initial T.program :: acts.map .act

theorem Opened.act {ds : List Call} {T : Trace Actor} (h : Opened ds T) (x : Act)
    (es : List Event) : Opened (ds ++ [.act x]) (T.taking es) := by
  obtain ⟨hnull, before, acts, rfl⟩ := h
  refine ⟨hnull, before, acts ++ [x], ?_⟩
  rw [List.map_append, List.append_assoc, List.cons_append]
  rfl

/-- What a finished trace says of its run. -/
structure Finished (ds : List Call) (T : Trace Actor) : Prop where
  success : T.outcome = Trace.outcomeOf (some .success) → T.success = .bool true
  cancelled : T.outcome = Trace.outcomeOf (some .cancelled) →
    ∃ (before : List Call) (acts : List Act) (n : Nat) (refused : Bool) (rest : List Call),
      ds = before ++ .begin T.challengeId T.initial T.program :: acts.map .act ++ .finish :: rest ∧
      Orderly (before ++ .begin T.challengeId T.initial T.program :: acts.map .act)
        (.taken n refused) ∧
      T.success = if refused then .bool false else .null

theorem Finished.snoc {ds : List Call} {T : Trace Actor} (h : Finished ds T) (d : Call) :
    Finished (ds ++ [d]) T := by
  refine ⟨h.success, fun hT => ?_⟩
  obtain ⟨before, acts, n, refused, rest, rfl, horderly, hsuccess⟩ := h.cancelled hT
  refine ⟨before, acts, n, refused, rest ++ [d], ?_, horderly, hsuccess⟩
  simp only [List.append_assoc, List.cons_append]

theorem Trace.eq_of_outcomeOf {o : Option Outcome} {o' : Outcome}
    (h : outcomeOf o = outcomeOf (some o')) : o = some o' := by
  cases o with
  | none => cases h
  | some o => rw [Outcome.eq_of_name (Json.str.inj h)]

namespace Wired

open Timeline Interpreter

variable {v : Wired} {ds : List Call} {ph ph' : Phase}

/-- What holds of an interpreter and its recorder after an orderly history. -/
structure Sound (v : Wired) (ds : List Call) (ph : Phase) : Prop where
  timeline : v.timeline = Timeline.after (actsOf ds)
  finished : ∀ T ∈ v.recorder.closed, T.outcome ≠ .null → Finished ds T
  unfinished : v.recorder.Unfinished
  stands : ∃ T, (ph ≠ .closed → v.recorder.current = some T ∧ Opened ds T) ∧
    v.timeline.Stands T.success ph

theorem Sound.valid (h : Sound v ds ph) : v.timeline.Valid := by
  rw [h.timeline]
  exact valid_after _

theorem stands_act {c : Timeline} {x : Act} {v : Json} (h : (c.carry x).Stands v ph) :
    (c.act x).Stands v ph := by
  cases ph with
  | closed => exact h
  | begun refused => exact ⟨h.rests, h.verdict, h.outcome⟩
  | taken n refused => exact ⟨h.born, h.newest, h.alone, h.silent, h.ended, h.told⟩

/-- An act, whatever becomes of it. -/
theorem Sound.act (h : Sound v ds ph) {x : Act} (hph : ph' ≠ .closed → ph ≠ .closed)
    (hstands : ∀ w, v.timeline.Stands w ph →
      (v.timeline.carry x).Stands (judged w (v.timeline.since (v.timeline.carry x))) ph') :
    Sound (v.act x) (ds ++ [.act x]) ph' := by
  obtain ⟨T, hopen, hT⟩ := h.stands
  have hclosed : (v.act x).recorder.closed = v.recorder.closed := Recorder.closed_observeAll ..
  refine ⟨?_, ?_, Recorder.unfinished_observeAll h.unfinished _, ?_⟩
  · rw [actsOf_snoc_act, Timeline.after_snoc, ← h.timeline]
    rfl
  · intro U hU hne
    rw [hclosed] at hU
    exact (h.finished U hU hne).snoc _
  · refine ⟨T.taking (v.timeline.since (v.timeline.act x)), fun hne => ?_,
      stands_act (hstands T.success hT)⟩
    obtain ⟨hcurrent, hopened⟩ := hopen (hph hne)
    exact ⟨Recorder.current_observeAll hcurrent _, hopened.act x _⟩

/-- A trace is begun while no run is recorded. -/
theorem Sound.begin (h : Sound v ds ph) (hover : v.timeline.Over) (challengeId : Json)
    (initial : Option Actor) (program : Json) :
    Sound (v.perform (.begin challengeId initial program))
      (ds ++ [.begin challengeId initial program]) (.begun false) := by
  refine ⟨?_, ?_, ?_, .new challengeId initial program, fun _ => ⟨rfl, rfl, ds, [], rfl⟩, ?_⟩
  · rw [actsOf_snoc_begin]
    exact h.timeline
  · intro U hU hne
    rcases List.mem_append.mp hU with hclosed | hcurrent
    · exact (h.finished U hclosed hne).snoc _
    · exact absurd (h.unfinished U (Option.mem_toList.mp hcurrent)) hne
  · rintro _ ⟨⟩
    rfl
  · exact ⟨hover, rfl, nofun⟩

/-- A trace is finished when nothing is left to record. -/
theorem Sound.finish (h : Sound v ds ph) {T : Trace Actor} (hcurrent : v.recorder.current = some T)
    (hover : v.timeline.Over)
    (hfinished : Finished (ds ++ [.finish])
      { T with outcome := Trace.outcomeOf v.timeline.interpreter.lastOutcome }) :
    Sound (v.perform .finish) (ds ++ [.finish]) .closed := by
  have hrecorder : (v.perform .finish).recorder =
      { v.recorder with
        closed := v.recorder.closed ++
          [{ T with outcome := Trace.outcomeOf v.timeline.interpreter.lastOutcome }]
        current := none } := by
    simp only [perform, Recorder.finish, hcurrent]
  refine ⟨?_, ?_, ?_, T, fun hne => absurd rfl hne, hover⟩
  · rw [actsOf_snoc_finish]
    exact h.timeline
  · intro U hU hne
    rw [hrecorder] at hU
    rcases List.mem_append.mp hU with hclosed | hlast
    · exact (h.finished U hclosed hne).snoc _
    · rw [List.mem_singleton.mp hlast]
      exact hfinished
  · intro U hU
    rw [hrecorder] at hU
    cases hU

theorem sound_of_orderly (forwardsStates forwardsVerdicts : Bool) (h : Orderly ds ph) :
    Sound (after (.new forwardsStates forwardsVerdicts) ds) ds ph := by
  induction h with
  | fresh =>
    refine ⟨rfl, nofun, nofun, .new .null none .null, fun hne => absurd rfl hne, ?_⟩
    intro m l hl
    cases hl
  | @begin ds ph challengeId initial program _ hph ih =>
    rw [after_snoc]
    refine ih.begin ?_ challengeId initial program
    obtain ⟨T, -, hT⟩ := ih.stands
    cases ph with
    | closed => exact hT
    | begun refused => exact hT.rests
    | taken n refused => exact absurd rfl (hph n refused)
  | act _ hx ih =>
    rw [after_snoc]
    rw [← ih.timeline] at hx
    exact ih.act id fun w hw => stands_quiet ih.valid hw hx
  | refused _ hx ih =>
    rw [after_snoc]
    rw [← ih.timeline] at hx
    refine ih.act ?_ fun w hw => stands_refused hw hx
    rintro hne rfl
    exact hne rfl
  | accepted _ hx ih =>
    rw [after_snoc]
    rw [← ih.timeline] at hx
    exact ih.act (fun _ => nofun) fun w hw => stands_accepted ih.valid hw hx
  | @finish ds n refused horderly hover ih =>
    rw [after_snoc]
    rw [← ih.timeline] at hover
    obtain ⟨T, hopen, hT⟩ := ih.stands
    obtain ⟨hcurrent, hnull, before, acts, hds⟩ := hopen nofun
    refine ih.finish hcurrent (Takes.rests hT hover) ⟨fun he => ?_, fun he => ?_⟩
    · exact Takes.of_success hT (Trace.eq_of_outcomeOf he) hover
    · refine ⟨before, acts, n, refused, [], ?_, hds ▸ horderly, ?_⟩
      · rw [hds]
      · exact Takes.of_cancelled hT (Trace.eq_of_outcomeOf he)
  | dismiss _ ih =>
    rw [after_snoc]
    obtain ⟨T, hopen, hT⟩ := ih.stands
    obtain ⟨hsuccess, hcancelled⟩ := hT.outcome rfl
    exact ih.finish (hopen nofun).1 hT.rests
      ⟨fun he => absurd (Trace.eq_of_outcomeOf he) hsuccess,
        fun he => absurd (Trace.eq_of_outcomeOf he) hcancelled⟩

/-- Whatever is tried while runs are recorded one after the other: a trace whose outcome is a
success has a positive verdict. A trace whose outcome is that its run was cancelled has no verdict
if no start was refused since its beginning, and the failure of that start if one was. -/
theorem trace_of_orderly (forwardsStates forwardsVerdicts : Bool) (ds : List Call) (ph : Phase)
    (h : Orderly ds ph) :
    ∀ T ∈ (after (.new forwardsStates forwardsVerdicts) ds).recorder.traces,
      (T.outcome = Trace.outcomeOf (some .success) → T.success = .bool true) ∧
      (T.outcome = Trace.outcomeOf (some .cancelled) →
        ∃ (before : List Call) (acts : List Act) (n : Nat) (refused : Bool) (rest : List Call),
          ds = before ++ .begin T.challengeId T.initial T.program :: acts.map .act ++
            .finish :: rest ∧
          Orderly (before ++ .begin T.challengeId T.initial T.program :: acts.map .act)
            (.taken n refused) ∧
          (refused = true ↔ RefusedAmong (actsOf before) acts) ∧
          T.success = if refused then .bool false else .null) := by
  have hsound := sound_of_orderly forwardsStates forwardsVerdicts h
  intro T hT
  by_cases hnull : T.outcome = .null
  · rw [hnull]
    exact ⟨nofun, nofun⟩
  rcases List.mem_append.mp hT with hclosed | hcurrent
  · have hfinished := hsound.finished T hclosed hnull
    refine ⟨hfinished.success, fun hcancelled => ?_⟩
    obtain ⟨before, acts, n, refused, rest, hds, horderly, hsuccess⟩ :=
      hfinished.cancelled hcancelled
    exact ⟨before, acts, n, refused, rest, hds, horderly, (horderly.hasRefused_iff rfl).2, hsuccess⟩
  · exact absurd (hsound.unfinished T (Option.mem_toList.mp hcurrent)) hnull

/-- What is finished while a run is recorded is its trace. -/
theorem Sound.exists_trace {n : Nat} {refused : Bool} (h : Sound v ds (.taken n refused)) :
    ∃ T ∈ (v.perform .finish).recorder.traces,
      T.outcome = Trace.outcomeOf v.timeline.interpreter.lastOutcome ∧
      v.timeline.Takes n refused T.success := by
  obtain ⟨T, hopen, hT⟩ := h.stands
  obtain ⟨hcurrent, -⟩ := hopen nofun
  refine ⟨{ T with outcome := Trace.outcomeOf v.timeline.interpreter.lastOutcome }, ?_, rfl, hT⟩
  simp only [perform, Recorder.finish, hcurrent, Recorder.traces]
  simp

/-! ## A start in the way -/

/-- Two steps to the end of the corridor. -/
def stride : Act := .start (.tuple (twoSteps.map .command)) corridor .unset

/-- A trace is begun and its run started; then another start is tried. -/
def disturbed : List Call := [.begin .null none .null, .act stride, .act stride]

theorem orderly_disturbed : Orderly disturbed (.taken 1 true) := by
  have hbegun : Orderly [.begin .null none .null] (.begun false) :=
    Orderly.fresh.begin .null none .null nofun
  have htaken : Orderly [.begin .null none .null, .act stride] (.taken 1 false) :=
    hbegun.accepted (by decide +kernel)
  exact htaken.refused (by decide +kernel)

/-- Left alone the run comes to its end and reports its success. -/
theorem trace_of_orderly_disturbed :
    Orderly (disturbed ++ List.replicate 5 (.act (.resume 1)) ++ [.finish]) .closed ∧
    ∃ T ∈ (after (.new false false)
        (disturbed ++ List.replicate 5 (.act (.resume 1)) ++ [.finish])).recorder.traces,
      T.outcome = Trace.outcomeOf (some .success) ∧ T.success = .bool true := by
  have hended : Orderly (disturbed ++ List.replicate 5 (.act (.resume 1))) (.taken 1 true) :=
    ((((orderly_disturbed.act rfl).act rfl).act rfl).act rfl).act rfl
  have horderly := hended.finish (by decide +kernel)
  have hlast : (after (.new false false)
      (disturbed ++ List.replicate 5 (.act (.resume 1)))).timeline.interpreter.lastOutcome =
        some .success := by
    decide +kernel
  obtain ⟨T, hmem, houtcome, -⟩ := (sound_of_orderly false false hended).exists_trace
  rw [hlast] at houtcome
  rw [← after_snoc] at hmem
  exact ⟨horderly, T, hmem, houtcome, (trace_of_orderly false false _ _ horderly T hmem).1 houtcome⟩

/-- The run is stopped instead and ends without a verdict; its trace has one. -/
theorem cancelled_with_verdict :
    Orderly (disturbed ++ [.act .stop, .act (.resume 1)] ++ [.finish]) .closed ∧
    ∃ T ∈ (after (.new false false)
        (disturbed ++ [.act .stop, .act (.resume 1)] ++ [.finish])).recorder.traces,
      T.outcome = Trace.outcomeOf (some .cancelled) ∧ T.success = .bool false := by
  have hended : Orderly (disturbed ++ [.act .stop, .act (.resume 1)]) (.taken 1 true) :=
    (orderly_disturbed.act rfl).act rfl
  have hlast : (after (.new false false)
      (disturbed ++ [.act .stop, .act (.resume 1)])).timeline.interpreter.lastOutcome =
        some .cancelled := by
    decide +kernel
  obtain ⟨T, hmem, houtcome, hT⟩ := (sound_of_orderly false false hended).exists_trace
  rw [hlast] at houtcome
  rw [← after_snoc] at hmem
  exact ⟨hended.finish (by decide +kernel), T, hmem, houtcome, hT.of_cancelled hlast⟩

end Wired

end BlockGrid
