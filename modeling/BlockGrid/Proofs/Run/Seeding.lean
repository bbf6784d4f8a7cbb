import BlockGrid.Proofs.Run.Stopping

/-!
# BlockGrid.Proofs.Run.Seeding

Where a start begins that brings no state of its own.

* `Placement` — a state that an interpreter was given, by a seed or by a run: the one that the run
  began from, or one that it called back.
* `Timeline.placed` — the placements of a history, in order.
* `Timeline.Placed` — the interpreter has the last of them; those of a run are its own states, and
  the last run to place one is the newest (`placed_after`).
* `unset_start_begins` — such a start begins from the last placement. That is the last seed only if
  no run has placed a state after it.
-/

namespace BlockGrid

/-- The state that an act seeds. Seeds that fail set nothing. -/
def Act.seeded? : Act → Option Actor
  | .seed (.ok a) => some a
  | .reset w => some w.reset
  | _ => none

/-- Who gives an interpreter its state. -/
inductive Placer where
  | seed
  | run (n : Nat)
  deriving DecidableEq, Repr

structure Placement where
  placer : Placer
  state : Actor
  deriving DecidableEq, Repr

/-- The states of one placer, in order. -/
def placedBy (placer : Placer) (ps : List Placement) : List Actor :=
  ps.filterMap fun x => if x.placer = placer then some x.state else none

theorem placedBy_append (placer : Placer) (ps qs : List Placement) :
    placedBy placer (ps ++ qs) = placedBy placer ps ++ placedBy placer qs :=
  List.filterMap_append ..

theorem placedBy_self (placer : Placer) (as : List Actor) :
    placedBy placer (as.map (.mk placer)) = as := by
  induction as with
  | nil => rfl
  | cons a as ih =>
    rw [placedBy] at ih ⊢
    simp [ih]

theorem placedBy_other {placer other : Placer} (h : other ≠ placer) (as : List Actor) :
    placedBy placer (as.map (.mk other)) = [] := by
  refine List.filterMap_eq_nil_iff.mpr fun x hx => ?_
  obtain ⟨a, -, rfl⟩ := List.mem_map.mp hx
  exact if_neg h

theorem placedBy_getLast? {placer : Placer} {ps : List Placement} {a : Actor}
    (h : ps.getLast? = some ⟨placer, a⟩) : (placedBy placer ps).getLast? = some a := by
  obtain ⟨qs, rfl⟩ := List.getLast?_eq_some_iff.mp h
  rw [placedBy_append]
  simp [placedBy]

namespace Interpreter

variable {i : Interpreter} {t : Tree} {p : Program Tree} {w : World} {a : Actor}

theorem initialState_unset (i : Interpreter) (w : World) :
    i.initialState w .unset =
      if w.contains (i.state.getD w.reset) then .ok (i.state.getD w.reset)
      else .error (.closed (i.state.getD w.reset).position (i.state.getD w.reset).direction) := rfl

theorem origin_of_unset (h : i.admission t w .unset = .ok (.ok (p, a))) : a = i.state.getD w.reset := by
  unfold admission at h
  split at h
  · cases h
  split at h
  · cases h
  · cases h
  split at h
  · cases h
  rw [initialState_unset] at h
  by_cases hopen : w.contains (i.state.getD w.reset) = true
  · rw [if_pos hopen] at h
    cases h
    rfl
  · rw [if_neg hopen] at h
    cases h

theorem admission_unset (hi : i.isRunning = false)
    (ht : Program.ofTree t = .ok p) (hp : p ≠ []) (ha : a = i.state.getD w.reset)
    (hopen : w.contains a = true) : i.admission t w .unset = .ok (.ok (p, a)) := by
  have he : p.isEmpty = false := List.isEmpty_eq_false_iff.mpr hp
  have hstate : i.initialState w .unset = .ok a := by
    rw [initialState_unset, ← ha, if_pos hopen]
  simp [admission, hi, ht, he, hstate]

end Interpreter

namespace Timeline

open Interpreter

variable {c : Timeline} {k n : Nat} {ps : List Placement} {p : Program Tree} {w : World} {a : Actor}

/-- What run `n` calls back when it goes on. -/
def called (c : Timeline) (n : Nat) : List Placement :=
  (((c.resume n).states n).drop (c.states n).length).map (.mk (.run n))

/-- The states that an act places. An accepted run places the one that it begins from. -/
def placing (c : Timeline) : Act → List Placement
  | .start t w initial =>
    match c.interpreter.admission t w initial with
    | .ok (.ok (p, a)) =>
      ⟨.run (c.interpreter.accepted + 1), a⟩ ::
        (c.enter p w a).called (c.interpreter.accepted + 1)
    | _ => []
  | .resume n => c.called n
  | .stop => []
  | .seed (.ok a) => [⟨.seed, a⟩]
  | .seed (.error _) => []
  | .reset w => [⟨.seed, w.reset⟩]

def placed (h : List Act) : List Placement :=
  (h.mapIdx fun i x => placing (after (h.take i)) x).flatten

theorem placed_snoc (h : List Act) (x : Act) :
    placed (h ++ [x]) = placed h ++ placing (after h) x := by
  have hbefore : (h.mapIdx fun i y => placing (after ((h ++ [x]).take i)) y) =
      h.mapIdx fun i y => placing (after (h.take i)) y := by
    refine List.ext_getElem (by simp) fun i hi _ => ?_
    rw [List.length_mapIdx] at hi
    rw [List.getElem_mapIdx, List.getElem_mapIdx,
      List.take_append_of_le_length (Nat.le_of_lt hi)]
  rw [placed, List.mapIdx_concat, hbefore, List.take_left, List.flatten_append]
  simp [placed]

structure Placed (c : Timeline) (ps : List Placement) : Prop where
  state : c.interpreter.state = ps.getLast?.map Placement.state
  unborn : ∀ n, c.lives n = none → placedBy (.run n) ps = []
  run : ∀ n l, c.lives n = some l → placedBy (.run n) ps = l.origin :: c.states n
  newest : ∀ n a, ps.getLast? = some ⟨.run n, a⟩ → n = c.interpreter.accepted

theorem placed_fresh : fresh.Placed [] where
  state := rfl
  unborn _ _ := rfl
  run _ _ h := by cases h
  newest _ _ h := by cases h

section Settle

variable {l : Life} {j : Job} {r : Interpreter × List Log × Signal}

theorem states_settle_self :
    (c.settle n l j r).states n = c.states n ++ statesOf r.2.2.events := by
  rw [states, shown_settle_self, statesOf, List.filterMap_append]
  rfl

/-- A run that goes on places what it calls back. -/
theorem Placed.settle (h : c.Placed ps) (hl : c.lives n = some l)
    (hacc : r.1.accepted = c.interpreter.accepted)
    (hstate : r.1.state = (statesOf r.2.2.events).getLast?.or c.interpreter.state)
    (hnewest : statesOf r.2.2.events ≠ [] → n = c.interpreter.accepted) :
    (c.settle n l j r).Placed (ps ++ (statesOf r.2.2.events).map (.mk (.run n))) where
  state := by
    show r.1.state = _
    rw [hstate, h.state, List.getLast?_append, List.getLast?_map]
    cases (statesOf r.2.2.events).getLast? <;> rfl
  unborn m hm := by
    by_cases hmn : m = n
    · subst hmn
      rw [lives_settle_self] at hm
      cases hm
    · rw [lives_settle_ne hmn] at hm
      rw [placedBy_append, h.unborn m hm, placedBy_other fun he => hmn (Placer.run.inj he).symm]
      rfl
  run m l' hl' := by
    by_cases hmn : m = n
    · subst hmn
      rw [lives_settle_self] at hl'
      cases hl'
      rw [placedBy_append, h.run m l hl, placedBy_self, states_settle_self]
      rfl
    · rw [lives_settle_ne hmn] at hl'
      rw [placedBy_append, h.run m l' hl', placedBy_other fun he => hmn (Placer.run.inj he).symm,
        List.append_nil, states, states, shown_settle_ne (run_ne hmn)]
  newest m b hb := by
    show m = r.1.accepted
    rw [hacc]
    rw [List.getLast?_append, List.getLast?_map] at hb
    cases hlast : (statesOf r.2.2.events).getLast? with
    | none =>
      rw [hlast] at hb
      exact h.newest m b hb
    | some b' =>
      rw [hlast] at hb
      cases hb
      refine hnewest fun hnil => ?_
      rw [hnil] at hlast
      cases hlast

theorem called_of_settle (hc : c.resume n = c.settle n l j r) :
    c.called n = (statesOf r.2.2.events).map (.mk (.run n)) := by
  rw [called, hc, states_settle_self, List.drop_left]

end Settle

theorem called_of_same (hc : c.resume n = c) : c.called n = [] := by
  rw [called, hc, List.drop_length]
  rfl

theorem Placed.resume (h : c.Placed ps) (hv : c.Valid) (n : Nat) :
    (c.resume n).Placed (ps ++ c.called n) := by
  rcases hv.resume_cases n with ⟨-, hc⟩ | ⟨l, j, hl, hj, ⟨-, logs, hc⟩ | ⟨-, hst, i, logs, s, hpiece, hc⟩⟩
  · rw [called_of_same hc, List.append_nil, hc]
    exact h
  · rw [called_of_settle hc, hc]
    exact h.settle hl (Job.accepted_gone j _) (Job.state_gone j _) fun hne => absurd rfl hne
  · rw [called_of_settle hc, hc]
    refine h.settle hl hpiece.facts.2.1 ?_ fun _ => ?_
    · rcases hpiece.state with ⟨hi, hev⟩ | ⟨b, hi, hev⟩
      · rw [hi, hev]; rfl
      · rw [hi, hev]; rfl
    · exact hv.newest n ⟨l, hl, by rw [hj]; rfl, hst⟩

/-- A run that begins places the state that it begins from. -/
theorem Placed.enter (h : c.Placed ps) (hv : c.Valid) (p : Program Tree) (w : World) (a : Actor) :
    (c.enter p w a).Placed (ps ++ [⟨.run (c.interpreter.accepted + 1), a⟩]) := by
  have hself : ∀ m, placedBy (.run m) [⟨.run (c.interpreter.accepted + 1), a⟩] =
      if m = c.interpreter.accepted + 1 then [a] else [] := by
    intro m
    by_cases hm : m = c.interpreter.accepted + 1
    · simp [placedBy, hm]
    · simp [placedBy, hm, Ne.symm hm]
  refine ⟨?_, ?_, ?_, ?_⟩
  · rw [List.getLast?_concat]
    rfl
  · intro m hm
    have hne : m ≠ c.interpreter.accepted + 1 := by
      rintro rfl
      rw [lives_enter_self] at hm
      cases hm
    rw [lives_enter_ne hne] at hm
    rw [placedBy_append, h.unborn m hm, hself, if_neg hne]
    rfl
  · intro m l hl
    rw [placedBy_append, hself]
    by_cases hm : m = c.interpreter.accepted + 1
    · subst hm
      rw [lives_enter_self] at hl
      cases hl
      rw [if_pos rfl, h.unborn _ hv.unborn]
      show _ = a :: statesOf (c.shown _)
      rw [hv.silent _ hv.unborn]
      rfl
    · rw [lives_enter_ne hm] at hl
      rw [if_neg hm, List.append_nil]
      exact h.run m l hl
  · intro m b hb
    rw [List.getLast?_concat] at hb
    cases hb
    rfl

/-- A seed leaves the runs alone. -/
theorem Placed.seed (h : c.Placed ps) (a : Actor) :
    ({ c with interpreter := c.interpreter.seed a } : Timeline).Placed (ps ++ [⟨.seed, a⟩]) where
  state := by
    rw [List.getLast?_concat]
    rfl
  unborn m hm := by
    rw [placedBy_append, h.unborn m hm]
    rfl
  run m l hl := by
    rw [placedBy_append, h.run m l hl]
    show _ ++ [] = _
    rw [List.append_nil]
    rfl
  newest m b hb := by
    rw [List.getLast?_concat] at hb
    cases hb

theorem Placed.start (h : c.Placed ps) (hv : c.Valid) (t : Tree) (w : World) (initial : Initial) :
    (c.start t w initial).Placed (ps ++ placing c (.start t w initial)) := by
  rw [placing]
  rcases c.start_cases t w initial with ⟨e, hadm, hc⟩ | ⟨r, hadm, hc⟩ | ⟨p, a, hadm, hc⟩
  · rw [hc, hadm, List.append_nil]
    exact h
  · rw [hc, hadm, List.append_nil]
    refine ⟨h.state, h.unborn, fun m l hl => ?_, h.newest⟩
    rw [states, shown, shownOf_append]
    exact (h.run m l hl).trans (by rw [states, shown]; simp [shownOf])
  · rw [hc, hadm]
    have hentered := (h.enter hv p w a).resume
      (valid_enter hv (isRunning_of_admission hadm) p w a) (c.interpreter.accepted + 1)
    rw [List.append_assoc] at hentered
    exact hentered

theorem Placed.carry (h : c.Placed ps) (hv : c.Valid) (x : Act) :
    (c.carry x).Placed (ps ++ placing c x) := by
  cases x with
  | start t w initial => exact h.start hv t w initial
  | resume n => exact h.resume hv n
  | stop =>
    rw [placing, List.append_nil]
    refine ⟨h.state, fun m hm => h.unborn m (Option.map_eq_none_iff.mp hm), fun m l hl => ?_,
      h.newest⟩
    obtain ⟨l', hl', rfl⟩ := Option.map_eq_some_iff.mp hl
    exact h.run m l' hl'
  | seed state =>
    cases state with
    | ok a => exact h.seed a
    | error e =>
      rw [placing, List.append_nil]
      exact h
  | reset w => exact h.seed w.reset

theorem placed_after (h : List Act) : (after h).Placed (placed h) := by
  induction h using List.reverseRecOn with
  | nil => exact placed_fresh
  | append_singleton h x ih =>
    have hnext := ih.carry (valid_after h) x
    rw [after_snoc, placed_snoc]
    exact ⟨hnext.state, hnext.unborn, hnext.run, hnext.newest⟩

/-- The seeds among the placements are those that the history sets. -/
theorem placedBy_seed (h : List Act) : placedBy .seed (placed h) = h.filterMap Act.seeded? := by
  induction h using List.reverseRecOn with
  | nil => rfl
  | append_singleton h x ih =>
    have hcalled : ∀ c : Timeline, ∀ n, placedBy .seed (c.called n) = [] := by
      intro c n
      exact placedBy_other (by simp) _
    rw [placed_snoc, placedBy_append, ih, List.filterMap_append]
    congr 1
    cases x with
    | start t w initial =>
      rw [placing]
      split
      · exact hcalled _ _
      · rfl
    | resume n => exact hcalled _ n
    | stop => rfl
    | seed state => cases state <;> rfl
    | reset w => rfl

/-! ## Starts without a state of their own -/

/-- A start that brings no state of its own begins from the last state that a seed or a run has
placed, or from the declared start of its world. If that is not the state of a run, it is the last
seed; otherwise the run is the newest one, and the state is the last that it called back, or the
one that it began from. -/
theorem unset_start_begins (h : List Act) (k n : Nat) (p : Program Tree) (w : World) (a : Actor)
    (hk : AcceptedAt h k n p w a) (hunset : ∃ t, h[k]? = some (.start t w .unset)) :
    let g := h.take k
    a = ((placed g).getLast?.map Placement.state).getD w.reset ∧
      ((∀ m b, (placed g).getLast? ≠ some ⟨.run m, b⟩) →
        a = (g.filterMap Act.seeded?).getLast?.getD w.reset) ∧
      ∀ m b, (placed g).getLast? = some ⟨.run m, b⟩ →
        m + 1 = n ∧ ∃ l, (after g).lives m = some l ∧ a = ((after g).states m).getLastD l.origin := by
  intro g
  have hplaced := placed_after g
  obtain ⟨t, hget⟩ := hunset
  obtain ⟨t', initial, hget', hadm, hn⟩ := hk
  rw [hget] at hget'
  cases hget'
  have horigin : a = ((placed g).getLast?.map Placement.state).getD w.reset := by
    rw [← hplaced.state]
    exact origin_of_unset hadm
  refine ⟨horigin, fun hseed => ?_, fun m b hlast => ?_⟩
  · rw [horigin, ← placedBy_seed]
    cases hlast : (placed g).getLast? with
    | none =>
      rw [List.getLast?_eq_none_iff.mp hlast]
      rfl
    | some x =>
      obtain ⟨placer, b⟩ := x
      cases placer with
      | seed => rw [placedBy_getLast? hlast]; rfl
      | run m => exact absurd hlast (hseed m b)
  · have hrun := placedBy_getLast? hlast
    have ha : a = b := by
      rw [horigin, hlast]
      rfl
    refine ⟨by rw [hplaced.newest m b hlast, hn], ?_⟩
    cases hl : (after g).lives m with
    | none =>
      rw [hplaced.unborn m hl] at hrun
      cases hrun
    | some l =>
      refine ⟨l, rfl, ?_⟩
      rw [hplaced.run m l hl, List.getLast?_cons] at hrun
      rw [List.getLastD_eq_getLast?, ha]
      exact (Option.some.inj hrun).symm

/-- Two steps to the end of the corridor, and the same once more. -/
def rerun : List Act :=
  .start (.tuple (twoSteps.map .command)) corridor .unset ::
    (List.replicate 5 (.resume 1) ++ [.start (.tuple (twoSteps.map .command)) corridor .unset])

theorem acceptedAt_rerun : AcceptedAt rerun 6 2 twoSteps corridor ⟨0, 2, "right", [], [], 2⟩ := by
  have hidle : (after (rerun.take 6)).interpreter.isRunning = false := by decide +kernel
  have hstate : (after (rerun.take 6)).interpreter.state = some ⟨0, 2, "right", [], [], 2⟩ := by
    decide +kernel
  have haccepted : (after (rerun.take 6)).interpreter.accepted = 1 := by decide +kernel
  refine ⟨_, _, rfl, ?_, by rw [haccepted]⟩
  refine admission_unset hidle (Program.ofTree_commands twoSteps) (List.cons_ne_nil _ _) ?_ ?_
  · rw [hstate]
    rfl
  · decide

theorem unset_start_begins_rerun : ∃ l, (after (rerun.take 6)).lives 1 = some l ∧
    (⟨0, 2, "right", [], [], 2⟩ : Actor) = ((after (rerun.take 6)).states 1).getLastD l.origin := by
  have hlast : (placed (rerun.take 6)).getLast? = some ⟨.run 1, ⟨0, 2, "right", [], [], 2⟩⟩ := by
    decide +kernel
  obtain ⟨-, -, hrun⟩ := unset_start_begins rerun 6 2 twoSteps corridor _ acceptedAt_rerun ⟨_, rfl⟩
  exact (hrun 1 _ hlast).2

/-- Nothing was seeded, and the second run does not begin at the declared start. -/
theorem rerun_misses_start :
    AcceptedAt rerun 6 2 twoSteps corridor ⟨0, 2, "right", [], [], 2⟩ ∧
      (∃ t, rerun[6]? = some (.start t corridor .unset)) ∧
      (rerun.take 6).filterMap Act.seeded? = [] ∧
      corridor.reset = ⟨0, 0, "right", [], [], 0⟩ :=
  ⟨acceptedAt_rerun, ⟨_, rfl⟩, rfl, rfl⟩

end Timeline

end BlockGrid
