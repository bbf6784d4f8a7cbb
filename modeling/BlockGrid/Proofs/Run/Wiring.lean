import BlockGrid.Proofs.Run.Recording

/-!
# BlockGrid.Proofs.Run.Wiring

A recorder that is wired to an interpreter, for one run after another.

* `Call`, `Wired` — what is done to the two of them: acts on the interpreter, of which the recorder
  is called back, and the beginnings and ends of traces.
* `Orderly`       — every accepted run has a trace of its own, begun before its start and finished
  when it is over. Meanwhile more starts may be tried.
* `RefusedAmong`  — whether one of them was refused; `Orderly.hasRefused_iff`, an orderly history
  keeps this of its open trace.
-/

namespace BlockGrid

inductive Call where
  | act (x : Act)
  | begin (challengeId : Json) (initial : Option Actor) (program : Json)
  | finish

def Call.act? : Call → Option Act
  | .act x => some x
  | _ => none

/-- What is done to the interpreter. -/
def actsOf (ds : List Call) : List Act := ds.filterMap Call.act?

theorem actsOf_snoc_act (ds : List Call) (x : Act) : actsOf (ds ++ [.act x]) = actsOf ds ++ [x] :=
  List.filterMap_append ..

theorem actsOf_snoc_begin (ds : List Call) (challengeId : Json) (initial : Option Actor)
    (program : Json) : actsOf (ds ++ [.begin challengeId initial program]) = actsOf ds := by
  rw [actsOf, List.filterMap_append]
  exact List.append_nil _

theorem actsOf_snoc_finish (ds : List Call) : actsOf (ds ++ [.finish]) = actsOf ds := by
  rw [actsOf, List.filterMap_append]
  exact List.append_nil _

/-- What becomes of a start that returns. -/
inductive Answer where
  | refused
  | accepted (n : Nat)
  deriving DecidableEq, Repr

namespace Timeline

def answer (c : Timeline) : Act → Option Answer
  | .start t w initial =>
    match c.interpreter.admission t w initial with
    | .error _ => none
    | .ok (.error _) => some .refused
    | .ok (.ok _) => some (.accepted (c.interpreter.accepted + 1))
  | _ => none

/-- What has been shown since. -/
def since (c d : Timeline) : List Event := (d.log.drop c.log.length).map Shown.event

end Timeline

structure Wired where
  timeline : Timeline
  recorder : Recorder

namespace Wired

/-- The recorder is called back with all that an act shows. -/
def act (v : Wired) (x : Act) : Wired :=
  ⟨v.timeline.act x, (v.recorder.observeAll (v.timeline.since (v.timeline.act x))).2⟩

/-- A trace is finished with the last outcome of the interpreter. -/
def perform (v : Wired) : Call → Wired
  | .act x => v.act x
  | .begin challengeId initial program =>
    { v with recorder := v.recorder.begin challengeId initial program }
  | .finish =>
    { v with
      recorder := (v.recorder.finish (Trace.outcomeOf v.timeline.interpreter.lastOutcome)).2 }

/-- A new interpreter, a recorder, and what is done to them. -/
def after (r : Recorder) (ds : List Call) : Wired := ds.foldl perform ⟨.fresh, r⟩

theorem after_snoc (r : Recorder) (ds : List Call) (d : Call) :
    after r (ds ++ [d]) = (after r ds).perform d := by
  simp only [after, List.foldl_append, List.foldl_cons, List.foldl_nil]

end Wired

/-- Where an orderly history stands: no trace is open, or one that waits for its run, or one that
has its run. Of an open trace it is kept whether a start was refused since its beginning. -/
inductive Phase where
  | closed
  | begun (refused : Bool)
  | taken (n : Nat) (refused : Bool)

def Phase.refuse : Phase → Phase
  | .closed => .closed
  | .begun _ => .begun true
  | .taken n _ => .taken n true

/-- A trace is begun when no run is recorded. A run is accepted into a trace that waits for one, and
its trace is finished when it is over; a trace that has seen nothing but refusals may be finished as
well. Starts that are refused and all other acts are free. -/
inductive Orderly : List Call → Phase → Prop where
  | fresh : Orderly [] .closed
  | begin {ds : List Call} {ph : Phase} (challengeId : Json) (initial : Option Actor)
      (program : Json) : Orderly ds ph → (∀ n refused, ph ≠ .taken n refused) →
      Orderly (ds ++ [.begin challengeId initial program]) (.begun false)
  | act {ds : List Call} {ph : Phase} {x : Act} : Orderly ds ph →
      (Timeline.after (actsOf ds)).answer x = none → Orderly (ds ++ [.act x]) ph
  | refused {ds : List Call} {ph : Phase} {x : Act} : Orderly ds ph →
      (Timeline.after (actsOf ds)).answer x = some .refused → Orderly (ds ++ [.act x]) ph.refuse
  | accepted {ds : List Call} {refused : Bool} {x : Act} {n : Nat} : Orderly ds (.begun refused) →
      (Timeline.after (actsOf ds)).answer x = some (.accepted n) →
      Orderly (ds ++ [.act x]) (.taken n refused)
  | finish {ds : List Call} {n : Nat} {refused : Bool} : Orderly ds (.taken n refused) →
      ((Timeline.after (actsOf ds)).lives n).all (·.job.isNone) = true →
      Orderly (ds ++ [.finish]) .closed
  | dismiss {ds : List Call} : Orderly ds (.begun true) → Orderly (ds ++ [.finish]) .closed

/-! ## Refusals since the beginning -/

def Phase.hasRefused : Phase → Bool
  | .closed => false
  | .begun refused => refused
  | .taken _ refused => refused

/-- One of `acts`, done after those `before`, is a start that is refused. -/
def RefusedAmong (before acts : List Act) : Prop :=
  ∃ earlier x later, acts = earlier ++ x :: later ∧
    (Timeline.after (before ++ earlier)).answer x = some .refused

theorem not_refusedAmong_nil (before : List Act) : ¬ RefusedAmong before [] := by
  rintro ⟨earlier, x, later, hnil, -⟩
  exact List.append_ne_nil_of_right_ne_nil earlier (List.cons_ne_nil x later) hnil.symm

theorem refusedAmong_snoc_iff (before acts : List Act) (x : Act) :
    RefusedAmong before (acts ++ [x]) ↔
      RefusedAmong before acts ∨ (Timeline.after (before ++ acts)).answer x = some .refused := by
  constructor
  · rintro ⟨earlier, y, later, hsplit, hy⟩
    rcases List.eq_nil_or_concat later with rfl | ⟨later, z, rfl⟩
    · obtain ⟨rfl, hlast⟩ := List.append_inj' hsplit rfl
      cases hlast
      exact .inr hy
    · rw [List.concat_eq_append, ← List.cons_append, ← List.append_assoc] at hsplit
      exact .inl ⟨earlier, y, later, (List.append_inj' hsplit rfl).1, hy⟩
  · rintro (⟨earlier, y, later, rfl, hy⟩ | hx)
    · exact ⟨earlier, y, later ++ [x], by simp only [List.append_assoc, List.cons_append], hy⟩
    · exact ⟨acts, x, [], rfl, hx⟩

theorem actsOf_opened (before : List Call) (challengeId : Json) (initial : Option Actor)
    (program : Json) (acts : List Act) :
    actsOf (before ++ .begin challengeId initial program :: acts.map .act) =
      actsOf before ++ acts := by
  rw [actsOf, List.filterMap_append, List.filterMap_cons_none rfl, List.filterMap_map]
  exact congrArg (actsOf before ++ ·) List.filterMap_some

/-- The last call since the beginning of a trace: the beginning itself, or an act. -/
theorem snoc_eq_opened {ds before : List Call} {d b : Call} {acts : List Act}
    (h : ds ++ [d] = before ++ b :: acts.map .act) :
    (acts = [] ∧ d = b) ∨
      ∃ acts' x, acts = acts' ++ [x] ∧ d = .act x ∧ ds = before ++ b :: acts'.map .act := by
  rcases List.eq_nil_or_concat acts with rfl | ⟨acts', x, rfl⟩
  · exact .inl ⟨rfl, List.singleton_inj.mp (List.append_inj' h rfl).2⟩
  · rw [List.concat_eq_append, List.map_append, ← List.cons_append, ← List.append_assoc] at h
    obtain ⟨hds, hd⟩ := List.append_inj' h rfl
    exact .inr ⟨acts', x, List.concat_eq_append, List.singleton_inj.mp hd, hds⟩

/-- An open trace knows whether one of the starts since its beginning was refused. -/
theorem Orderly.hasRefused_iff {ds : List Call} {ph : Phase} (h : Orderly ds ph)
    {before : List Call} {challengeId : Json} {initial : Option Actor} {program : Json}
    {acts : List Act} (hds : ds = before ++ .begin challengeId initial program :: acts.map .act) :
    ph ≠ .closed ∧ (ph.hasRefused = true ↔ RefusedAmong (actsOf before) acts) := by
  induction h generalizing acts with
  | fresh => exact absurd hds.symm (List.append_ne_nil_of_right_ne_nil _ (List.cons_ne_nil _ _))
  | begin =>
    obtain ⟨rfl, -⟩ | ⟨_, _, -, hact, -⟩ := snoc_eq_opened hds
    · exact ⟨nofun, iff_of_false nofun (not_refusedAmong_nil _)⟩
    · cases hact
  | finish =>
    obtain ⟨-, hbegin⟩ | ⟨_, _, -, hact, -⟩ := snoc_eq_opened hds
    · cases hbegin
    · cases hact
  | dismiss =>
    obtain ⟨-, hbegin⟩ | ⟨_, _, -, hact, -⟩ := snoc_eq_opened hds
    · cases hbegin
    · cases hact
  | act _ hx ih =>
    obtain ⟨-, hbegin⟩ | ⟨acts, x, rfl, hact, rfl⟩ := snoc_eq_opened hds
    · cases hbegin
    cases hact
    obtain ⟨hopen, hiff⟩ := ih rfl
    rw [actsOf_opened] at hx
    rw [refusedAmong_snoc_iff, hx]
    exact ⟨hopen, hiff.trans (by simp)⟩
  | @refused _ ph _ _ hx ih =>
    obtain ⟨-, hbegin⟩ | ⟨acts, x, rfl, hact, rfl⟩ := snoc_eq_opened hds
    · cases hbegin
    cases hact
    obtain ⟨hopen, -⟩ := ih rfl
    rw [actsOf_opened] at hx
    rw [refusedAmong_snoc_iff]
    cases ph with
    | closed => exact absurd rfl hopen
    | begun refused => exact ⟨nofun, iff_of_true rfl (.inr hx)⟩
    | taken n refused => exact ⟨nofun, iff_of_true rfl (.inr hx)⟩
  | accepted _ hx ih =>
    obtain ⟨-, hbegin⟩ | ⟨acts, x, rfl, hact, rfl⟩ := snoc_eq_opened hds
    · cases hbegin
    cases hact
    obtain ⟨-, hiff⟩ := ih rfl
    rw [actsOf_opened] at hx
    rw [refusedAmong_snoc_iff, hx]
    exact ⟨nofun, hiff.trans (by simp)⟩

end BlockGrid
