import BlockGrid.Proofs.Run.Paced
import BlockGrid.Run.Replay

/-!
# BlockGrid.Proofs.Run.Replay

A program run once from the declared start and recorded.

* `Recorder.current_observeAll` — an open trace takes up the states and the last verdict of what is
  observed; `verdicts_observeAll` says which verdicts are passed on.
* `World.result`  — the outcome of a replay: that of the path, unless there is nothing to run.
* `World.record`  — the trace of a replay, said without running anything.
* `World.asked`   — the motions that a replay asks a delay for.
* `replay_eq`     — a replay leaves this trace and this verdict, whatever is passed on of it, and has
  asked for these delays.
-/

namespace BlockGrid

/-- The trace after some events. -/
def Trace.taking (t : Trace Actor) (es : List Event) : Trace Actor :=
  { t with
    states := t.states ++ statesOf es
    success := ((verdictsOf es).getLast?.map Json.bool).getD t.success }

namespace Recorder

variable {r : Recorder} {t : Trace Actor}

theorem current_observe (h : r.current = some t) (e : Event) :
    (r.observe e).2.current = some (t.taking [e]) := by
  cases e with
  | moved a => simp only [observe, receive, target, h]; rfl
  | reported b =>
    simp only [observe, receive, target, h]
    cases b <;> simp [Received.addTo, Trace.taking, statesOf, verdictsOf, Event.actor?,
      Event.verdict?, Json.isTruthy]
  | _ =>
    -- What is not called back is not recorded.
    show r.current = _
    rw [h]
    show some t = some { t with states := t.states ++ [] }
    rw [List.append_nil]

theorem taking_taking (t : Trace Actor) (es fs : List Event) :
    (t.taking es).taking fs = t.taking (es ++ fs) := by
  have hsuccess : ((verdictsOf (es ++ fs)).getLast?.map Json.bool).getD t.success =
      ((verdictsOf fs).getLast?.map Json.bool).getD
        (((verdictsOf es).getLast?.map Json.bool).getD t.success) := by
    rw [verdictsOf, List.filterMap_append, List.getLast?_append]
    show (((verdictsOf fs).getLast?.or (verdictsOf es).getLast?).map Json.bool).getD _ = _
    cases (verdictsOf fs).getLast? <;> rfl
  rw [Trace.taking, Trace.taking, Trace.taking, hsuccess, statesOf, statesOf, statesOf,
    List.filterMap_append, List.append_assoc]

theorem current_observeAll (h : r.current = some t) (es : List Event) :
    (r.observeAll es).2.current = some (t.taking es) := by
  induction es generalizing r t with
  | nil =>
    rw [observeAll, h, Trace.taking, statesOf, List.filterMap_nil, List.append_nil]
    rfl
  | cons e es ih =>
    have hnext := ih (current_observe h e)
    rw [taking_taking] at hnext
    exact hnext

/-- Verdicts are passed on to whom they are forwarded. -/
theorem verdicts_observe (h : r.forwardsVerdicts = true) (e : Event) :
    (r.observe e).1.filterMap Received.verdict? = verdictsOf [e] ∧
      (r.observe e).2.forwardsVerdicts = true := by
  have htarget : r.target.1.forwardsVerdicts = true := by
    unfold target
    cases r.current <;> exact h
  cases e with
  | moved a =>
    refine ⟨?_, htarget⟩
    show (if r.forwardsStates then [Received.state a] else []).filterMap Received.verdict? = []
    cases r.forwardsStates <;> rfl
  | reported b =>
    refine ⟨?_, htarget⟩
    show (if r.forwardsVerdicts then [Received.verdict (.bool b)] else []).filterMap
      Received.verdict? = [b]
    rw [h]
    rfl
  | _ => exact ⟨rfl, h⟩

theorem verdicts_observeAll (h : r.forwardsVerdicts = true) (es : List Event) :
    (r.observeAll es).1.filterMap Received.verdict? = verdictsOf es := by
  induction es generalizing r with
  | nil => rfl
  | cons e es ih =>
    obtain ⟨hnow, hstill⟩ := verdicts_observe h e
    have hlater := ih hstill
    show ((r.observe e).1 ++ ((r.observe e).2.observeAll es).1).filterMap Received.verdict? = _
    rw [List.filterMap_append, hnow, hlater, ← List.singleton_append, verdictsOf, verdictsOf,
      ← List.filterMap_append]
    rfl

end Recorder

/-- A start that is refused shows its one verdict. -/
theorem Interpreter.runThrough_of_refused {i : Interpreter} {t : Tree} {w : World}
    {initial : Initial} {r : Refusal} (h : i.admission t w initial = .ok (.error r)) :
    i.runThrough t w initial =
      .ok (i.concluded r.outcome, [.logged r.log, .reported false]) := by
  rw [runThrough, start_eq_admission, h]
  simp only [Except.map, refuse]
  rw [course_of_none rfl]
  rfl

namespace World

open Interpreter

variable {w : World} {p : Program Tree}

theorem contains_reset (w : World) : w.contains w.reset = true := by
  rw [contains, Bool.and_eq_true]
  exact ⟨w.facing.isKnown_name, w.start_open⟩

/-- The outcome of a replay. -/
def result (w : World) (p : Program Tree) : Outcome :=
  if p.isEmpty then .emptyProgram else w.ending w.reset p.motions

/-- What a replay leaves. -/
def record (w : World) (p : Program Tree) : Trace Actor where
  challengeId := w.challengeId
  initial := some w.reset
  states := w.path w.reset p.motions
  success := .bool (w.result p == .success)
  outcome := .str (w.result p).name
  program := .arr (Program.toJsonList p)

/-- Those that are made, and the one that is blocked. -/
def asked (w : World) (p : Program Tree) : List Motion :=
  p.motions.take ((w.path w.reset p.motions).length + 1)

/-- A run succeeds when there is something to run, and a clear path leads to the objective. -/
theorem result_eq_success_iff :
    w.result p = .success ↔ p ≠ [] ∧ w.clears w.reset p.motions = true ∧
      w.evaluate (w.arrival w.reset p.motions) = true := by
  cases p with
  | nil => exact ⟨nofun, fun h => absurd rfl h.1⟩
  | cons c p =>
    rw [← beq_iff_eq]
    show (w.ending w.reset (Program.motions (c :: p)) == .success) = true ↔ _
    rw [ending_eq_success, Bool.and_eq_true]
    exact (and_iff_right (List.cons_ne_nil c p)).symm

theorem success_record_iff : (w.record p).success = .bool true ↔ w.result p = .success := by
  show Json.bool (w.result p == .success) = .bool true ↔ _
  rw [Json.bool.injEq, beq_iff_eq]

theorem outcome_record_iff :
    (w.record p).outcome = .str Outcome.success.name ↔ w.result p = .success := by
  show Json.str (w.result p).name = .str Outcome.success.name ↔ _
  rw [Json.str.injEq]
  cases w.result p <;> decide

/-- The run of a replay, on an interpreter that was reset to the world. -/
theorem runThrough_reset (w : World) (hreg : Program.isRegular p = true) :
    ∃ last events, (idle.reset w).runThrough (.tuple (p.map .command)) w .unset =
        .ok (last, events) ∧
      statesOf events = w.path w.reset p.motions ∧
      verdictsOf events = [w.result p == .success] ∧ last.lastOutcome = some (w.result p) ∧
      events.filterMap Event.motion? = w.asked p := by
  have hread := Program.ofTree_commands p
  cases hp : p.isEmpty with
  | true =>
    obtain rfl := List.isEmpty_iff.mp hp
    have hadm : (idle.reset w).admission (.tuple []) w .unset = .ok (.error .empty) := by
      have hempty : Program.ofTree (.tuple []) = .ok [] := hread
      have hidle : (idle.reset w).isRunning = false := rfl
      simp [admission, hidle, hempty]
    exact ⟨_, _, runThrough_of_refused hadm, rfl, rfl, rfl, rfl⟩
  | false =>
    have hne : p ≠ [] := by
      rintro rfl
      cases hp
    have hresult : w.result p = w.ending w.reset p.motions := by
      rw [result, hp]
      rfl
    have hadm : (idle.reset w).admission (.tuple (p.map .command)) w .unset =
        .ok (.ok (p, w.reset)) := admission_unset rfl hread hne rfl w.contains_reset
    obtain ⟨hcalls, hlast⟩ := course_of_accept (idle.reset w) p w w.reset
    have hshown := shown_acceptEvents (idle.reset w) p w w.reset
    rw [walked_of_isRegular hreg] at hcalls hlast hshown
    refine ⟨_, _, runThrough_of_admission hadm, ?_, ?_, ?_, ?_⟩
    · rw [← statesOf_calls, hcalls, statesOf_script]
    · rw [← verdictsOf_calls, hcalls, verdictsOf_script, hresult]
    · rw [hlast, hresult]
    · rw [← motions_unlogged, hshown, asked_rhythm, asked]

theorem replay_eq {t : Tree} (hread : Program.ofTree t = .ok p) (hreg : Program.isRegular p = true)
    (verbose : Bool) : ∃ r, w.replay t verbose = .ok r ∧ r.trace = w.record p ∧
      r.success = (w.result p == .success) ∧ r.events.filterMap Event.motion? = w.asked p := by
  obtain ⟨last, events, hrun, hstates, hverdicts, hlast, hasked⟩ := w.runThrough_reset hreg
  let recorder := (Recorder.new verbose true).begin w.challengeId (some w.reset)
    (.arr (Program.toJsonList p))
  have hcurrent : (recorder.observeAll events).2.current =
      some ((Trace.new w.challengeId (some w.reset) (.arr (Program.toJsonList p))).taking events) :=
    Recorder.current_observeAll rfl events
  have hpassed : (recorder.observeAll events).1.filterMap Received.verdict? = verdictsOf events :=
    Recorder.verdicts_observeAll rfl events
  refine ⟨⟨((recorder.observeAll events).2.finish
      (Json.ofOption (fun o => .str (Outcome.name o)) last.lastOutcome)).1.getD
        (.new w.challengeId none .null),
    ((recorder.observeAll events).1.filterMap Received.verdict?).getLast?.getD false, events,
    (recorder.observeAll events).1⟩, ?_, ?_, ?_, hasked⟩
  · simp only [replay, hread, Except.mapError, bind, Except.bind, hrun]
    rfl
  · rw [Recorder.finish, hcurrent, hlast, Trace.taking, hstates, hverdicts]
    rfl
  · rw [hpassed, hverdicts]
    rfl

end World

end BlockGrid
