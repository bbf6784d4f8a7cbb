import BlockGrid.Proofs.Grid.Seeds
import BlockGrid.Proofs.Run.Ingestion
import BlockGrid.Proofs.Run.Seeding

/-!
# BlockGrid.Proofs.Run.Refusals

Starts that are refused: why, and what they leave behind.

* `Interpreter.Reason` — the reasons to refuse a start, in the order in which they are looked for;
  `start_refused_iff`.
* `Interpreter.unjudged` — an interpreter without its last outcome, which nothing that it does
  depends on (`admission_unjudged`, `Job.alike_advance`).
* `Timeline.Beside`   — two timelines, the second with one refused start more than the first. Every
  act keeps them side by side (`Beside.act`).
* `refused_start_frame` — so a refused start calls back its failure, sets the last outcome, and
  changes nothing else, then or later.
-/

namespace BlockGrid

namespace Interpreter

/-- Why a start is refused. A reason counts only where none before it does. -/
inductive Reason (i : Interpreter) (t : Tree) (w : World) (initial : Initial) : Outcome → Prop where
  | busy : i.isRunning = true → Reason i t w initial .busy
  | malformed : i.isRunning = false → t.nodes? = none → Reason i t w initial .malformedProgram
  | empty : i.isRunning = false → Program.ofTree t = .ok [] → Reason i t w initial .emptyProgram
  | invalid {p : Program Tree} : i.isRunning = false → Program.ofTree t = .ok p → p ≠ [] →
      (∀ a, initial.Gives i w a → w.contains a = false) → Reason i t w initial .invalidState

section Admission

variable {i : Interpreter} {t : Tree} {w : World} {initial : Initial} {p : Program Tree}
  {a : Actor} {o : Outcome}

theorem admission_busy (h : i.isRunning = true) : i.admission t w initial = .ok (.error .busy) := by
  rw [admission, if_pos h]

theorem admission_idle (h : i.isRunning = false) :
    i.admission t w initial =
      match Program.ofTree t with
      | .error (.notSequence kind) => .ok (.error (.malformed kind))
      | .error (.badNumeral text) => .error (.program (.badNumeral text))
      | .ok p =>
        if p.isEmpty then .ok (.error .empty)
        else
          match i.initialState w initial with
          | .error e => if e.isCaught then .ok (.error (.invalid e)) else .error (.state e)
          | .ok a => .ok (.ok (p, a)) := by
  have hnot : ¬ i.isRunning = true := by simp [h]
  exact if_neg hnot

theorem admission_of_program (h : i.isRunning = false) (hp : Program.ofTree t = .ok p)
    (hne : p ≠ []) :
    i.admission t w initial =
      match i.initialState w initial with
      | .error e => if e.isCaught then .ok (.error (.invalid e)) else .error (.state e)
      | .ok a => .ok (.ok (p, a)) := by
  simp only [admission_idle h, hp, List.isEmpty_eq_false_iff.mpr hne, Bool.false_eq_true, if_false]

theorem admission_of_reason (h : i.Reason t w initial o) (hbounded : initial.isBounded = true) :
    ∃ r, i.admission t w initial = .ok (.error r) ∧ r.outcome = o := by
  cases h with
  | busy hrun => exact ⟨.busy, admission_busy hrun, rfl⟩
  | malformed hidle hnone =>
    refine ⟨.malformed t.kindName, ?_, rfl⟩
    rw [admission_idle hidle, Program.ofTree_of_none hnone]
  | empty hidle hread =>
    refine ⟨.empty, ?_, rfl⟩
    rw [admission_idle hidle, hread]
    rfl
  | invalid hidle hread hne hclosed =>
    obtain ⟨e, he⟩ := initialState_error_iff.mpr hclosed
    refine ⟨.invalid e, ?_, rfl⟩
    rw [admission_of_program hidle hread hne, he]
    exact if_pos (caught_initialState hbounded he)

/-- A start whose program can be read is refused for a reason, or begins where it asks to. -/
theorem admission_cases (i : Interpreter) (w : World) (initial : Initial)
    (hread : ∀ text, Program.ofTree t ≠ .error (.badNumeral text)) :
    (∃ o, i.Reason t w initial o) ∨
    ∃ p a, i.isRunning = false ∧ Program.ofTree t = .ok p ∧ p ≠ [] ∧ initial.Gives i w a ∧
      w.contains a = true ∧ i.admission t w initial = .ok (.ok (p, a)) := by
  cases hrun : i.isRunning with
  | true => exact .inl ⟨_, .busy hrun⟩
  | false =>
    cases ht : Program.ofTree t with
    | error e =>
      cases e with
      | notSequence kind => exact .inl ⟨_, .malformed hrun (Program.notSequence_iff.mp ⟨kind, ht⟩)⟩
      | badNumeral text => exact absurd ht (hread text)
    | ok p =>
      by_cases hp : p = []
      · exact .inl ⟨_, .empty hrun (hp ▸ ht)⟩
      cases hs : i.initialState w initial with
      | error e => exact .inl ⟨_, .invalid hrun ht hp (initialState_error_iff.mp ⟨e, hs⟩)⟩
      | ok a =>
        obtain ⟨hgives, hopen⟩ := initialState_ok_iff.mp hs
        refine .inr ⟨p, a, rfl, rfl, hp, hgives, hopen, ?_⟩
        rw [admission_of_program hrun ht hp, hs]

/-- A run that begins has something to come; a refused start has not. -/
theorem accept_ne_refuse (i : Interpreter) (p : Program Tree) (w : World) (a : Actor) (r : Refusal) :
    i.accept p w a ≠ i.refuse r := by
  intro he
  have hnone : (i.accept p w a).2.2.job? = none := by rw [he]; rfl
  obtain ⟨i', logs, s, hadv, hpiece⟩ :=
    Job.piece_of_advance (j := first (i.accepted + 1) p w a) (isLive_entered i a) (by simp [first])
  obtain ⟨-, -, k, hk, -⟩ := hpiece.facts
  rw [accept_eq, hadv] at hnone
  cases hk.symm.trans hnone

/-- A start that returns has refused for the reason that there is, or has begun a run. -/
theorem start_refused_iff (hread : ∀ text, Program.ofTree t ≠ .error (.badNumeral text))
    (hbounded : initial.isBounded = true) :
    (∃ r, i.start t w initial = .ok (i.refuse r)) ↔ ∃ o, i.Reason t w initial o := by
  constructor
  · rintro ⟨r, hr⟩
    rcases i.admission_cases w initial hread with hreason | ⟨p, a, -, -, -, -, -, hacc⟩
    · exact hreason
    · rw [start_eq_admission, hacc] at hr
      exact absurd (Except.ok.inj hr) (accept_ne_refuse i p w a r)
  · rintro ⟨o, ho⟩
    obtain ⟨r, hr, -⟩ := admission_of_reason ho hbounded
    exact ⟨r, by rw [start_eq_admission, hr]⟩

end Admission

/-! ## What the last outcome has a hand in -/

/-- An interpreter but for its last outcome. -/
def unjudged (i : Interpreter) : Interpreter := { i with lastOutcome := none }

theorem admission_unjudged (i : Interpreter) (t : Tree) (w : World) (initial : Initial) :
    i.unjudged.admission t w initial = i.admission t w initial := rfl

/-- Results that differ in the last outcome at most. -/
def Alike (r s : Interpreter × List Log × Signal) : Prop :=
  r.1.unjudged = s.1.unjudged ∧ r.2 = s.2

end Interpreter

namespace Job

open Interpreter

variable {i : Interpreter}

theorem alike_report (j : Job) (i : Interpreter) (o : Outcome) (log : Log) :
    Alike (j.report i o log) (j.report i.unjudged o log) := ⟨rfl, rfl⟩

theorem alike_cancel (j : Job) (i : Interpreter) : Alike (j.cancel i) (j.cancel i.unjudged) := by
  refine ⟨?_, rfl⟩
  have hholds : i.unjudged.holds j.run = i.holds j.run := rfl
  cases hh : i.holds j.run with
  | true =>
    have hc : (i.concluded .cancelled).holds j.run = true := hh
    have hc' : (i.unjudged.concluded .cancelled).holds j.run = true := hh
    simp only [cancel, release, hholds, hh, hc, hc', if_true]
    rfl
  | false =>
    simp only [cancel, release, hholds, hh, Bool.false_eq_true, if_false]
    rfl

theorem alike_release (j : Job) (i : Interpreter) (s : Signal) :
    Alike (i.release j.run, [], s) (i.unjudged.release j.run, [], s) := by
  refine ⟨?_, rfl⟩
  have hholds : i.unjudged.holds j.run = i.holds j.run := rfl
  simp only [release, hholds]
  cases i.holds j.run <;> rfl

theorem alike_apply (j : Job) (i : Interpreter) (m : Motion) :
    Alike (j.apply i m) (j.apply i.unjudged m) := by
  unfold apply
  cases j.world.step j.actor m with
  | error e => exact alike_report ..
  | ok r =>
    cases hr : r.legal with
    | true => simp only [hr, if_true]; exact ⟨rfl, rfl⟩
    | false => simp only [hr, Bool.false_eq_true, if_false]; exact alike_report ..

theorem alike_take (j : Job) (i : Interpreter) (a : Action Tree) (walker : Walker Tree) :
    Alike (j.take i a walker) (j.take i.unjudged a walker) := by
  cases a <;> exact ⟨rfl, rfl⟩

/-- Whatever the last outcome is, a run goes on in the same way. -/
theorem alike_advance (j : Job) (i : Interpreter) : Alike (j.advance i) (j.advance i.unjudged) := by
  have hlive : i.unjudged.isLive j.run = i.isLive j.run := rfl
  unfold advance
  rw [hlive]
  cases j.point with
  | leaving => exact alike_release ..
  | asleep m =>
    cases i.isLive j.run with
    | true => exact alike_apply ..
    | false => exact alike_cancel ..
  | looking =>
    cases i.isLive j.run with
    | true =>
      cases j.walker.next? with
      | some r => exact alike_take ..
      | none => exact alike_report ..
    | false => exact alike_cancel ..

end Job

/-! ## One refused start more -/

/-- Starts are named by their places, which are one further on after an additional act. -/
def Sender.shifted : Sender → Sender
  | .start k => .start (k + 1)
  | .run n => .run n

def Shown.shifted (x : Shown) : Shown := ⟨x.sender.shifted, x.event⟩

theorem shifted_shownBy (s : Signal) (sender : Sender) :
    (s.shownBy sender).map Shown.shifted = s.shownBy sender.shifted := by
  rw [Signal.shownBy, List.map_map]
  rfl

/-- The second log has one entry more, after `base`; what follows is the same, with the starts one
further on. -/
def Continues (base : List Shown) (refusal : Shown) (log log' : List Shown) : Prop :=
  ∃ later, log = base ++ later ∧ log' = base ++ refusal :: later.map Shown.shifted

theorem Continues.shown {base log log' : List Shown} {refusal : Shown}
    (h : Continues base refusal log log') (s : Signal) (sender : Sender) :
    Continues base refusal (log ++ s.shownBy sender) (log' ++ s.shownBy sender.shifted) := by
  obtain ⟨later, hlog, hlog'⟩ := h
  refine ⟨later ++ s.shownBy sender, ?_, ?_⟩
  · rw [hlog, List.append_assoc]
  · rw [hlog', List.map_append, shifted_shownBy, List.append_assoc, List.cons_append]

theorem shownOf_shifted (n : Nat) (log : List Shown) :
    shownOf (.run n) (log.map Shown.shifted) = shownOf (.run n) log := by
  have hsender : ∀ sender : Sender, sender.shifted = .run n ↔ sender = .run n := by
    intro sender
    cases sender <;> simp [Sender.shifted]
  rw [shownOf, shownOf, List.filterMap_map]
  congr 1
  funext x
  simp only [Function.comp_apply, Shown.shifted, hsender]

/-- Of every run both logs show the same. -/
theorem Continues.shownOf_run {base log log' : List Shown} {k : Nat} {e : Event}
    (h : Continues base ⟨.start k, e⟩ log log') (n : Nat) :
    shownOf (.run n) log' = shownOf (.run n) log := by
  obtain ⟨later, rfl, rfl⟩ := h
  have hrefusal : shownOf (.run n) [⟨.start k, e⟩] = [] := rfl
  rw [shownOf_append, shownOf_append, ← List.singleton_append, shownOf_append, hrefusal,
    shownOf_shifted, List.nil_append]

namespace Timeline

open Interpreter

/-- Two timelines, the second with one refused start more. -/
structure Beside (base : List Shown) (refusal : Shown) (c d : Timeline) : Prop where
  interpreter : d.interpreter.unjudged = c.interpreter.unjudged
  acts : d.acts = c.acts + 1
  lives : d.lives = c.lives
  log : Continues base refusal c.log d.log

namespace Beside

variable {base : List Shown} {refusal : Shown} {c d : Timeline}

theorem same (h : Beside base refusal c d) :
    d.interpreter.current = c.interpreter.current ∧ d.interpreter.state = c.interpreter.state ∧
      d.interpreter.accepted = c.interpreter.accepted := by
  have hi := h.interpreter
  simp only [unjudged, Interpreter.mk.injEq, and_true] at hi
  exact hi

theorem admission (h : Beside base refusal c d) (t : Tree) (w : World) (initial : Initial) :
    d.interpreter.admission t w initial = c.interpreter.admission t w initial := by
  rw [← admission_unjudged, h.interpreter, admission_unjudged]

theorem settle (h : Beside base refusal c d) (n : Nat) (l : Life) (j : Job)
    {r r' : Interpreter × List Log × Signal} (hr : Alike r' r) :
    Beside base refusal (c.settle n l j r) (d.settle n l j r') := by
  obtain ⟨hi, hsame⟩ := hr
  refine ⟨hi, h.acts, ?_, ?_⟩
  · simp only [Timeline.settle, h.lives, hsame]
  · simp only [Timeline.settle, hsame]
    exact h.log.shown r.2.2 (.run n)

theorem resume (h : Beside base refusal c d) (n : Nat) :
    Beside base refusal (c.resume n) (d.resume n) := by
  have hlives : d.lives n = c.lives n := by rw [h.lives]
  cases hl : c.lives n with
  | none =>
    rw [resume_of_none hl, resume_of_none (hlives.trans hl)]
    exact h
  | some l =>
    cases hj : l.job with
    | none =>
      rw [resume_of_over hl hj, resume_of_over (hlives.trans hl) hj]
      exact h
    | some j =>
      rw [resume_of_job hl hj, resume_of_job (hlives.trans hl) hj]
      refine h.settle n l j ?_
      have hd := j.alike_advance d.interpreter
      have hc := j.alike_advance c.interpreter
      rw [h.interpreter] at hd
      exact ⟨hd.1.trans hc.1.symm, hd.2.trans hc.2.symm⟩

theorem enter (h : Beside base refusal c d) (p : Program Tree) (w : World) (a : Actor) :
    Beside base refusal (c.enter p w a) (d.enter p w a) := by
  obtain ⟨-, -, haccepted⟩ := h.same
  refine ⟨?_, h.acts, ?_, h.log⟩
  · simp only [Timeline.enter, entered, unjudged, haccepted]
  · simp only [Timeline.enter, h.lives, haccepted]

theorem start (h : Beside base refusal c d) (t : Tree) (w : World) (initial : Initial) :
    Beside base refusal (c.start t w initial) (d.start t w initial) := by
  have hadm := h.admission t w initial
  rcases c.start_cases t w initial with ⟨e, hc, he⟩ | ⟨r, hc, he⟩ | ⟨p, a, hc, he⟩
  · rw [he, start_of_error (hadm.trans hc)]
    exact h
  · rw [he, start_of_refused (hadm.trans hc), h.acts]
    exact ⟨h.interpreter, rfl, h.lives, h.log.shown (.reported false none) (.start c.acts)⟩
  · obtain ⟨-, -, haccepted⟩ := h.same
    rw [he, start_of_accepted (hadm.trans hc), haccepted]
    exact (h.enter p w a).resume _

theorem carry (h : Beside base refusal c d) (x : Act) :
    Beside base refusal (c.carry x) (d.carry x) := by
  obtain ⟨hcurrent, hstate, haccepted⟩ := h.same
  cases x with
  | start t w initial => exact h.start t w initial
  | resume n => exact h.resume n
  | stop =>
    refine ⟨?_, h.acts, ?_, h.log⟩
    · simp only [Timeline.carry, Interpreter.stop, unjudged, hcurrent, hstate, haccepted]
    · simp only [Timeline.carry, h.lives]
  | seed state =>
    cases state with
    | error e => exact h
    | ok a =>
      refine ⟨?_, h.acts, h.lives, h.log⟩
      simp only [Timeline.carry, seed, unjudged, hcurrent, haccepted]
  | reset w =>
    refine ⟨?_, h.acts, h.lives, h.log⟩
    simp only [Timeline.carry, reset, seed, unjudged, hcurrent, haccepted]

/-- Every act keeps two timelines side by side. -/
theorem act (h : Beside base refusal c d) (x : Act) :
    Beside base refusal (c.act x) (d.act x) := by
  have hnext := h.carry x
  exact ⟨hnext.interpreter, congrArg (· + 1) h.acts, hnext.lives, hnext.log⟩

end Beside

section Refused

variable {h : List Act} {t : Tree} {w : World} {initial : Initial} {o : Outcome}

/-- What a refused start shows. -/
def refusalAt (h : List Act) : Shown := ⟨.start h.length, .reported false⟩

theorem start_of_reason (hbounded : initial.isBounded = true)
    (ho : (after h).interpreter.Reason t w initial o) :
    (after h).start t w initial =
      { after h with
        interpreter := (after h).interpreter.concluded o
        log := (after h).log ++ [refusalAt h] } := by
  obtain ⟨r, hr, rfl⟩ := admission_of_reason ho hbounded
  rw [start_of_refused hr, refusalAt, ← acts_after]

theorem beside_after (hbounded : initial.isBounded = true)
    (ho : (after h).interpreter.Reason t w initial o) (more : List Act) :
    Beside (after h).log (refusalAt h) (after (h ++ more))
      (after (h ++ .start t w initial :: more)) := by
  induction more using List.reverseRecOn with
  | nil =>
    rw [after_snoc, List.append_nil, Timeline.act, Timeline.carry, start_of_reason hbounded ho]
    exact ⟨rfl, rfl, rfl, [], (List.append_nil _).symm, rfl⟩
  | append_singleton more x ih =>
    rw [← List.append_assoc, ← List.cons_append, ← List.append_assoc, after_snoc, after_snoc]
    exact ih.act x

/-- A start is refused when there is a reason to, the first that applies, and otherwise begins a run
where it asks to. A refused start returns, calls back one failure and sets the last outcome to its
reason; every run is left where it was, and shows afterwards what it shows without that start,
whatever is done. -/
theorem refused_start_frame (h : List Act) (t : Tree) (w : World) (initial : Initial)
    (hread : ∀ text, Program.ofTree t ≠ .error (.badNumeral text))
    (hbounded : initial.isBounded = true) :
    let c := after h
    let i := c.interpreter
    ((∃ r, i.start t w initial = .ok (i.refuse r)) ↔ ∃ o, i.Reason t w initial o) ∧
    ((∃ o, i.Reason t w initial o) ∨ ∃ p a, Program.ofTree t = .ok p ∧ initial.Gives i w a ∧
      w.contains a = true ∧ i.start t w initial = .ok (i.accept p w a)) ∧
    (∀ e, i.initialState w initial = .error e → e.isCaught = true) ∧
    ∀ o, i.Reason t w initial o →
      let d := after (h ++ [.start t w initial])
      d.interpreter = { i with lastOutcome := some o } ∧
      d.log = c.log ++ [⟨.start h.length, .reported false⟩] ∧
      d.lives = c.lives ∧
      ∀ more,
        let c' := after (h ++ more)
        let d' := after (h ++ .start t w initial :: more)
        d'.interpreter.unjudged = c'.interpreter.unjudged ∧
        d'.lives = c'.lives ∧
        (∀ n, d'.shown (.run n) = c'.shown (.run n)) ∧
        Continues c.log ⟨.start h.length, .reported false⟩ c'.log d'.log := by
  intro c i
  refine ⟨start_refused_iff hread hbounded, ?_, fun e => caught_initialState hbounded, ?_⟩
  · rcases i.admission_cases w initial hread with hreason | ⟨p, a, -, ht, -, hgives, hopen, hacc⟩
    · exact .inl hreason
    · refine .inr ⟨p, a, ht, hgives, hopen, ?_⟩
      rw [start_eq_admission, hacc]
  · intro o ho d
    have hd : d = { c.start t w initial with acts := c.acts + 1 } := after_snoc ..
    rw [start_of_reason hbounded ho] at hd
    refine ⟨by rw [hd]; rfl, by rw [hd]; rfl, by rw [hd], fun more => ?_⟩
    have hbeside := beside_after hbounded ho more
    exact ⟨hbeside.interpreter, hbeside.lives, hbeside.log.shownOf_run, hbeside.log⟩

/-- A stopped run that has not come to an end yet. -/
def halted : List Act := [.start (.tuple (twoSteps.map .command)) corridor .unset, .stop]

theorem refused_start_frame_halted :
    (∀ text, Program.ofTree .null ≠ .error (.badNumeral text)) ∧
    Initial.isBounded .unset = true ∧
    (after (halted ++ [.start .null corridor .unset])).interpreter =
      { (after halted).interpreter with lastOutcome := some .emptyProgram } ∧
    ∀ more n, (after (halted ++ .start .null corridor .unset :: more)).shown (.run n) =
      (after (halted ++ more)).shown (.run n) := by
  have hempty : Program.ofTree .null = .ok [] := rfl
  have hread : ∀ text, Program.ofTree .null ≠ .error (.badNumeral text) := by
    intro text
    rw [hempty]
    exact nofun
  have hreason : (after halted).interpreter.Reason .null corridor .unset .emptyProgram :=
    .empty (by decide +kernel) hempty
  obtain ⟨-, -, -, hframe⟩ := refused_start_frame halted .null corridor .unset hread rfl
  obtain ⟨hinterpreter, -, -, hlater⟩ := hframe _ hreason
  exact ⟨hread, rfl, hinterpreter, fun more => (hlater more).2.2.1⟩

/-- A tuple is neither null nor a list, and a start of it is not refused. -/
theorem tuple_not_refused :
    let t := Tree.tuple (twoSteps.map .command)
    t ≠ .null ∧ (∀ items, t ≠ .list items) ∧
    (∀ text, Program.ofTree t ≠ .error (.badNumeral text)) ∧
    ∀ r, idle.start t corridor .unset ≠ .ok (idle.refuse r) := by
  have hread : Program.ofTree (.tuple (twoSteps.map .command)) = .ok twoSteps :=
    Program.ofTree_commands twoSteps
  refine ⟨nofun, nofun, ?_, ?_⟩
  · intro text
    rw [hread]
    exact nofun
  · intro r hr
    have hadm : idle.admission (.tuple (twoSteps.map .command)) corridor .unset =
        .ok (.ok (twoSteps, corridor.reset)) :=
      admission_unset rfl hread (List.cons_ne_nil _ _) rfl (by decide)
    rw [start_eq_admission, hadm] at hr
    exact accept_ne_refuse _ _ _ _ _ (Except.ok.inj hr)

end Refused

end Timeline

end BlockGrid
