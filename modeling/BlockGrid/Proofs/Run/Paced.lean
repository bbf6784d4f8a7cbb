import BlockGrid.Proofs.Grid.Retrace
import BlockGrid.Proofs.Run.Refusals
import BlockGrid.Run.Pacing

/-!
# BlockGrid.Proofs.Run.Paced

A run under a pacing: before each motion the delay for its kind is asked for and waited.

* `Interpreter.runPaced` — a start and all that follows, with every delay asked of the pacing.
  `runPaced_eq`: no delay is refused, and apart from them it is `runThrough`.
* `World.rhythm`         — delays, states and the verdict of a path in order.
* `Job.rhythm`           — what is left of it at any point of a run. A piece of a run takes off what
  it shows (`rhythm_advance`).
* `shown_course`         — hence the course of a run keeps to it.
* `pacing_presents`      — all pacings show the same but for the delays, which are those of the
  motions up to the first that is blocked.
-/

namespace BlockGrid

/-- What can be observed of a paced run. -/
inductive Beat where
  | message (log : Log)
  | pause (delay : Json)
  | state (a : Actor)
  | verdict (success : Bool)

namespace Beat

def ofEvent (pacing : Pacing) : Event → Beat
  | .logged log => .message log
  | .slept m => .pause (pacing.delay m)
  | .moved a => .state a
  | .reported success => .verdict success

def isMessage : Beat → Bool
  | .message _ => true
  | _ => false

def isPause : Beat → Bool
  | .pause _ => true
  | _ => false

def pause? : Beat → Option Json
  | .pause delay => some delay
  | _ => none

def state? : Beat → Option Actor
  | .state a => some a
  | _ => none

def verdict? : Beat → Option Bool
  | .verdict success => some success
  | _ => none

end Beat

/-- What a signal shows. A run that goes to sleep asks for the delay by the name of the kind. -/
def Signal.beats (pacing : Pacing) : Signal → Except PacingError (List Beat)
  | .asleep m _ => (pacing.delayFor (.str (Job.motionName m))).map fun delay => [.pause delay]
  | .yielded _ => .ok []
  | .moved a _ => .ok [.state a]
  | .reported success _ => .ok [.verdict success]
  | .ended => .ok []

namespace Interpreter

/-- The interpreter after a run, and what is shown from a signal on. -/
def pacedFrom (pacing : Pacing) (i : Interpreter) (s : Signal) :
    Except PacingError (Interpreter × List Beat) := do
  let now ← s.beats pacing
  match _h : s.job? with
  | none => pure (i, now)
  | some j =>
    let next := j.advance i
    let (last, later) ← pacedFrom pacing next.1 next.2.2
    pure (last, now ++ (next.2.1.map .message ++ later))
  termination_by s.work
  decreasing_by
    have := Signal.work_of_job? ‹_›
    have := Job.work_advance j i
    omega

def runPaced (pacing : Pacing) (i : Interpreter) (t : Tree) (w : World) (initial : Initial) :
    Except StartError (Except PacingError (Interpreter × List Beat)) :=
  (i.start t w initial).map fun (i', logs, s) =>
    (i'.pacedFrom pacing s).map fun (last, beats) => (last, logs.map .message ++ beats)

end Interpreter

/-! ## Delays -/

/-- There is a delay for every motion that a run can ask for. -/
theorem Pacing.delayFor_motionName (pacing : Pacing) (m : Motion) :
    pacing.delayFor (.str (Job.motionName m)) = .ok (pacing.delay m) := by
  cases m <;> rfl

theorem Signal.beats_eq (pacing : Pacing) (s : Signal) :
    s.beats pacing = .ok (s.events.map (.ofEvent pacing)) := by
  cases s with
  | asleep m j =>
    rw [beats, Pacing.delayFor_motionName]
    rfl
  | _ => rfl

namespace Interpreter

/-- By induction on the work that is left: the delays are the only thing that a pacing adds. -/
theorem pacedFrom_eq (pacing : Pacing) (i : Interpreter) (s : Signal) :
    i.pacedFrom pacing s =
      .ok ((i.course s).1, (i.course s).2.map (.ofEvent pacing)) := by
  induction hn : s.work using Nat.strongRecOn generalizing i s with
  | ind n ih =>
    subst hn
    rw [pacedFrom, Signal.beats_eq]
    cases hj : s.job? with
    | none =>
      rw [course_of_none hj]
      rfl
    | some j =>
      have hlt : (j.advance i).2.2.work < s.work := by
        have := Signal.work_of_job? hj
        have := Job.work_advance j i
        omega
      rw [course_of_some hj]
      simp only [ih _ hlt _ _ rfl, List.map_append, List.map_map]
      rfl

theorem runPaced_eq (pacing : Pacing) (i : Interpreter) (t : Tree) (w : World)
    (initial : Initial) :
    i.runPaced pacing t w initial = (i.runThrough t w initial).map fun (last, events) =>
      .ok (last, events.map (.ofEvent pacing)) := by
  rw [runPaced, runThrough]
  cases i.start t w initial with
  | error e => rfl
  | ok r =>
    obtain ⟨i', logs, s⟩ := r
    show Except.ok ((i'.pacedFrom pacing s).map _) = _
    rw [pacedFrom_eq]
    simp only [Except.map, List.map_append, List.map_map]
    rfl

end Interpreter

/-! ## Rhythm -/

namespace Event

def isLogged : Event → Bool
  | .logged _ => true
  | _ => false

/-- The motion that a delay is for. -/
def motion? : Event → Option Motion
  | .slept m => some m
  | _ => none

end Event

theorem shown_logged (logs : List Log) :
    (logs.map Event.logged).filter (fun e => !e.isLogged) = [] := by
  induction logs with
  | nil => rfl
  | cons log logs ih => exact ih

theorem Signal.shown_events (s : Signal) : s.events.filter (fun e => !e.isLogged) = s.events := by
  cases s <;> rfl

/-- A path with the delays asked for on the way: one before each motion, also before the motion that
is blocked, which ends the path. -/
def World.rhythm (w : World) : Actor → List Motion → List Event
  | a, [] => [.reported (w.outcome a == .success)]
  | a, m :: ms =>
    .slept m ::
      match w.next? a m with
      | some b => .moved b :: w.rhythm b ms
      | none => [.reported false]

namespace Job

/-- What is left of the rhythm of a run. A run that sleeps has asked for its delay. -/
def rhythm (j : Job) : List Event :=
  match j.point with
  | .leaving => []
  | .looking => j.world.rhythm j.actor (motionsOf j.walker.left)
  | .asleep m => (j.world.rhythm j.actor (m :: motionsOf j.walker.left)).tail

/-- The run is in progress, or has reported. -/
def IsGoing (j : Job) (i : Interpreter) : Prop := i.isLive j.run = true ∨ j.point = .leaving

end Job

/-- What a signal shows, and what is left after it. -/
def Signal.rhythm (s : Signal) : List Event :=
  s.events ++
    match s.job? with
    | none => []
    | some j => j.rhythm

namespace Job

variable {j k : Job} {i : Interpreter}

theorem rhythm_advance (h : j.IsGoing i) : (j.advance i).2.2.rhythm = j.rhythm := by
  cases hp : j.point with
  | leaving =>
    rw [advance_leaving i hp, rhythm, hp]
    rfl
  | asleep m =>
    have hlive : i.isLive j.run = true := h.resolve_right (by simp [hp])
    have hadv : j.advance i = j.apply i m := by simp only [advance, hp, hlive, if_true]
    rw [hadv, rhythm, hp]
    cases hn : j.world.next? j.actor m with
    | none =>
      rw [apply_of_blocked hn]
      simp only [World.rhythm, hn]
      rfl
    | some b =>
      obtain ⟨logs, happly⟩ := apply_of_next? (i := i) hn
      rw [happly]
      simp only [World.rhythm, hn]
      rfl
  | looking =>
    have hlive : i.isLive j.run = true := h.resolve_right (by simp [hp])
    rw [rhythm, hp]
    cases hn : j.walker.next? with
    | none =>
      have hadv : j.advance i = j.conclude i := by simp only [advance, hp, hlive, if_true, hn]
      rw [hadv, Walker.left_of_next?_none hn]
      rfl
    | some n =>
      obtain ⟨a, walker⟩ := n
      have hadv : j.advance i = j.take i a walker := by
        simp only [advance, hp, hlive, if_true, hn]
      rw [hadv, Walker.left_of_next? hn]
      cases a <;> rfl

theorem isGoing_advance (h : j.IsGoing i) (hk : (j.advance i).2.2.job? = some k) :
    k.IsGoing (j.advance i).1 := by
  by_cases hp : j.point = .leaving
  · rw [advance_leaving i hp] at hk
    cases hk
  · have hlive := h.resolve_right hp
    obtain ⟨i', logs, s, hadv, hpiece⟩ := piece_of_advance hlive hp
    rw [hadv] at hk ⊢
    cases hpiece with
    | sleeps _ hc _ =>
      cases hk
      exact .inl (by rw [hc.run]; exact hlive)
    | yields _ hc _ =>
      cases hk
      exact .inl (by rw [hc.run]; exact hlive)
    | moves _ hc _ =>
      cases hk
      exact .inl (by rw [hc.run, Interpreter.isLive_applied]; exact hlive)
    | reports _ _ =>
      cases hk
      exact .inr rfl

end Job

namespace Interpreter

/-- By induction on the work that is left: every piece takes its part off the rhythm. -/
theorem shown_course {i : Interpreter} {s : Signal}
    (h : ∀ j, s.job? = some j → j.IsGoing i) :
    (i.course s).2.filter (fun e => !e.isLogged) = s.rhythm := by
  induction hn : s.work using Nat.strongRecOn generalizing i s with
  | ind n ih =>
    subst hn
    cases hj : s.job? with
    | none =>
      rw [course_of_none hj, Signal.rhythm, hj, List.append_nil]
      exact s.shown_events
    | some j =>
      have hgoing := h j hj
      have hlt : (j.advance i).2.2.work < s.work := by
        have := Signal.work_of_job? hj
        have := Job.work_advance j i
        omega
      have hnext := ih _ hlt (fun k hk => Job.isGoing_advance hgoing hk) rfl
      rw [course_of_some hj, Signal.rhythm, hj]
      simp only [List.filter_append, s.shown_events, shown_logged, List.nil_append, hnext,
        Job.rhythm_advance hgoing]

theorem motions_unlogged (es : List Event) :
    (es.filter fun e => !e.isLogged).filterMap Event.motion? = es.filterMap Event.motion? := by
  rw [List.filterMap_filter]
  congr 1
  funext e
  cases e <;> rfl

theorem shown_acceptEvents (i : Interpreter) (p : Program Tree) (w : World) (a : Actor) :
    (i.acceptEvents p w a).filter (fun e => !e.isLogged) = w.rhythm a (walked p) := by
  have hgoing : (first (i.accepted + 1) p w a).IsGoing (i.entered a) :=
    .inl (isLive_entered i a)
  rw [acceptEvents, accept_eq, List.filter_append, shown_logged, List.nil_append,
    shown_course fun k hk => Job.isGoing_advance hgoing hk, Job.rhythm_advance hgoing]
  rfl

end Interpreter

/-! ## The motions that are paced -/

namespace World

variable {w : World} {a b : Actor} {m : Motion} {ms : List Motion}

theorem rhythm_of_next? (h : w.next? a m = some b) (ms : List Motion) :
    w.rhythm a (m :: ms) = .slept m :: .moved b :: w.rhythm b ms := by
  simp only [rhythm, h]

theorem rhythm_of_blocked (h : w.next? a m = none) (ms : List Motion) :
    w.rhythm a (m :: ms) = [.slept m, .reported false] := by
  simp only [rhythm, h]

/-- There is one delay for each motion that is made, and one for the motion that is blocked. -/
theorem asked_rhythm (w : World) (a : Actor) (ms : List Motion) :
    (w.rhythm a ms).filterMap Event.motion? = ms.take ((w.path a ms).length + 1) := by
  induction ms generalizing a with
  | nil => rfl
  | cons m ms ih =>
    cases hn : w.next? a m with
    | none =>
      rw [rhythm_of_blocked hn, path_of_blocked hn]
      rfl
    | some b =>
      rw [rhythm_of_next? hn, path_of_next? hn]
      exact congrArg (m :: ·) (ih b)

/-- Without its delays a rhythm is the script of the path. -/
theorem calls_rhythm (w : World) (a : Actor) (ms : List Motion) :
    calls (w.rhythm a ms) = w.script a ms := by
  induction ms generalizing a with
  | nil => rfl
  | cons m ms ih =>
    cases hn : w.next? a m with
    | none =>
      rw [rhythm_of_blocked hn, script, path_of_blocked hn, ending_of_blocked hn]
      rfl
    | some b =>
      rw [rhythm_of_next? hn, script_of_next? hn]
      exact congrArg (.moved b :: ·) (ih b)

theorem statesOf_rhythm (w : World) (a : Actor) (ms : List Motion) :
    statesOf (w.rhythm a ms) = w.path a ms := by
  rw [← statesOf_calls, calls_rhythm, statesOf_script]

theorem verdictsOf_rhythm (w : World) (a : Actor) (ms : List Motion) :
    verdictsOf (w.rhythm a ms) = [w.ending a ms == .success] := by
  rw [← verdictsOf_calls, calls_rhythm, verdictsOf_script]

/-- Nothing but a step is ever blocked. -/
theorem blocked_step (h : w.contains a = true) (hm : ms[(w.path a ms).length]? = some m) :
    m = .step := by
  induction ms generalizing a with
  | nil => cases hm
  | cons k ms ih =>
    cases hn : w.next? a k with
    | none =>
      rw [path_of_blocked hn] at hm
      have hk : k = m := Option.some.inj hm
      subst hk
      cases k with
      | step => rfl
      | turn way =>
        obtain ⟨⟨d, hd⟩, -⟩ := contains_eq_true.mp h
        cases (next?_turn hd way).symm.trans hn
    | some b =>
      rw [path_of_next? hn] at hm
      exact ih (contains_of_next? h hn) hm

end World

/-! ## Paced runs -/

/-- Messages, states and the verdict, without the delays. -/
def unpaced (beats : List Beat) : List Beat := beats.filter fun b => !b.isPause

/-- Beats keep to the path of motions from a state: the delay of each motion, then the state it
leads to, until one motion is blocked after its delay or all have been made. -/
structure InTime (pacing : Pacing) (w : World) (a : Actor) (ms : List Motion) (beats : List Beat) :
    Prop where
  order : beats.filter (fun b => !b.isMessage) = (w.rhythm a ms).map (.ofEvent pacing)
  delays : beats.filterMap Beat.pause? = (ms.take ((w.path a ms).length + 1)).map pacing.delay
  states : beats.filterMap Beat.state? = w.path a ms
  verdict : beats.filterMap Beat.verdict? = [w.ending a ms == .success]

section Beats

variable {w : World} {a : Actor} {ms : List Motion} {beats : List Beat} {pacing : Pacing}

theorem unpaced_ofEvent (pacing other : Pacing) (es : List Event) :
    unpaced (es.map (.ofEvent pacing)) = unpaced (es.map (.ofEvent other)) := by
  induction es with
  | nil => rfl
  | cons e es ih =>
    cases e with
    | slept m => exact ih
    | logged log => exact congrArg (Beat.message log :: ·) ih
    | moved a => exact congrArg (Beat.state a :: ·) ih
    | reported success => exact congrArg (Beat.verdict success :: ·) ih

theorem unlogged_ofEvent (pacing : Pacing) (es : List Event) :
    (es.map (Beat.ofEvent pacing)).filter (fun b => !b.isMessage) =
      (es.filter fun e => !e.isLogged).map (Beat.ofEvent pacing) := by
  rw [List.filter_map]
  congr 2
  funext e
  cases e <;> rfl

theorem filterMap_unlogged {α : Type} {f : Beat → Option α} (h : ∀ log, f (.message log) = none)
    (beats : List Beat) :
    (beats.filter fun b => !b.isMessage).filterMap f = beats.filterMap f := by
  rw [List.filterMap_filter]
  congr 1
  funext b
  cases b with
  | message log => exact (h log).symm
  | _ => rfl

theorem pauses_ofEvent (pacing : Pacing) (es : List Event) :
    (es.map (.ofEvent pacing)).filterMap Beat.pause? =
      (es.filterMap Event.motion?).map pacing.delay := by
  rw [List.filterMap_map, List.map_filterMap]
  congr 1
  funext e
  cases e <;> rfl

theorem states_ofEvent (pacing : Pacing) (es : List Event) :
    (es.map (.ofEvent pacing)).filterMap Beat.state? = statesOf es := by
  rw [List.filterMap_map, statesOf]
  congr 1
  funext e
  cases e <;> rfl

theorem verdicts_ofEvent (pacing : Pacing) (es : List Event) :
    (es.map (.ofEvent pacing)).filterMap Beat.verdict? = verdictsOf es := by
  rw [List.filterMap_map, verdictsOf]
  congr 1
  funext e
  cases e <;> rfl

/-- The order of the beats says all. -/
theorem InTime.of_order
    (h : beats.filter (fun b => !b.isMessage) = (w.rhythm a ms).map (.ofEvent pacing)) :
    InTime pacing w a ms beats where
  order := h
  delays := by
    rw [← filterMap_unlogged (fun _ => rfl), h, pauses_ofEvent, World.asked_rhythm]
  states := by
    rw [← filterMap_unlogged (fun _ => rfl), h, states_ofEvent, World.statesOf_rhythm]
  verdict := by
    rw [← filterMap_unlogged (fun _ => rfl), h, verdicts_ofEvent, World.verdictsOf_rhythm]

end Beats

namespace Interpreter

variable {i : Interpreter} {t : Tree} {w : World} {initial : Initial} {p : Program Tree} {a : Actor}

theorem contains_of_admission (h : i.admission t w initial = .ok (.ok (p, a))) :
    w.contains a = true := by
  have hidle := isRunning_of_admission h
  rw [admission_idle hidle] at h
  split at h
  · cases h
  · cases h
  · split at h
    · cases h
    · split at h
      · split at h <;> cases h
      · rename_i hstate
        cases h
        exact (initialState_ok_iff.mp hstate).2

/-- A run that is left alone shows the same under all pacings, apart from the delays. -/
theorem pacing_presents (h : i.admission t w initial = .ok (.ok (p, a))) :
    (Program.isRegular p = true → walked p = p.motions) ∧
    (∀ m, (walked p)[(w.path a (walked p)).length]? = some m → m = .step) ∧
    ∀ pacing other : Pacing, ∃ last beats beats',
      i.runPaced pacing t w initial = .ok (.ok (last, beats)) ∧
      i.runPaced other t w initial = .ok (.ok (last, beats')) ∧
      last.state = some (w.arrival a (walked p)) ∧
      last.lastOutcome = some (w.ending a (walked p)) ∧
      unpaced beats = unpaced beats' ∧
      InTime pacing w a (walked p) beats ∧ InTime other w a (walked p) beats' := by
  obtain ⟨-, hlast⟩ := course_of_accept i p w a
  have hrun (pacing : Pacing) : i.runPaced pacing t w initial =
      .ok (.ok (((i.accept p w a).1.course (i.accept p w a).2.2).1,
        (i.acceptEvents p w a).map (.ofEvent pacing))) := by
    rw [runPaced_eq, runThrough_of_admission h]
    rfl
  have htime (pacing : Pacing) :
      InTime pacing w a (walked p) ((i.acceptEvents p w a).map (.ofEvent pacing)) := by
    refine .of_order ?_
    rw [unlogged_ofEvent, shown_acceptEvents]
  refine ⟨walked_of_isRegular, fun m => World.blocked_step (contains_of_admission h), ?_⟩
  intro pacing other
  refine ⟨_, _, _, hrun pacing, hrun other, ?_, ?_, unpaced_ofEvent pacing other _, htime pacing,
    htime other⟩
  · rw [hlast]
  · rw [hlast]

/-! ## A run into a wall -/

/-- The third step of the move leads out of the corridor, and the last turn is never reached. -/
def overrun : Program Tree :=
  [.act (.unrecognized .null "unknown command"), .act (.turn "left"), .act (.turn "right"),
    .act (.move 3), .act (.turn "left")]

theorem pacing_presents_overrun : ∃ last beats beats',
    idle.runPaced ⟨.int 3, .int 1⟩ (.tuple (overrun.map .command)) corridor
      (.actor ⟨0, 0, "right", [], [], 0⟩) = .ok (.ok (last, beats)) ∧
    idle.runPaced .immediate (.tuple (overrun.map .command)) corridor
      (.actor ⟨0, 0, "right", [], [], 0⟩) = .ok (.ok (last, beats')) ∧
    last.lastOutcome = some .illegalMove ∧
    unpaced beats = unpaced beats' ∧
    beats.filter (fun b => !b.isMessage) =
      [.pause (.int 1), .state ⟨0, 0, "up", [], [], 0⟩,
        .pause (.int 1), .state ⟨0, 0, "right", [], [], 0⟩,
        .pause (.int 3), .state ⟨0, 1, "right", [], [], 1⟩,
        .pause (.int 3), .state ⟨0, 2, "right", [], [], 2⟩,
        .pause (.int 3), .verdict false] := by
  obtain ⟨hwalked, -, hpaced⟩ :=
    pacing_presents (admission_actor (i := idle) (w := corridor) (a := ⟨0, 0, "right", [], [], 0⟩)
      rfl (Program.ofTree_commands overrun) (List.cons_ne_nil _ _) (by decide))
  obtain ⟨last, beats, beats', hrun, hrun', -, houtcome, hsame, htime, -⟩ :=
    hpaced ⟨.int 3, .int 1⟩ .immediate
  rw [hwalked (by decide)] at houtcome htime
  refine ⟨last, beats, beats', hrun, hrun', houtcome.trans ?_, hsame, htime.order.trans ?_⟩
  · decide
  · rfl

end Interpreter

end BlockGrid
