import BlockGrid.Proofs.Run.Histories

/-!
# BlockGrid.Proofs.Run.Starts

The starts of a history by their places, and what became of each.

* `Timeline.AcceptedAt`, `Timeline.RefusedAt` — the act at a place is a start that began a run, or
  that was refused.
* `birth_after`      — a run keeps the program, the world and the state that it began with.
* `exists_life_iff`  — the runs are those that accepted starts began.
* `shown_start_after` — a refused start calls back one failure, and nothing else is called back in
  its place.
-/

namespace BlockGrid

/-- What a run began with. -/
def Life.birth (l : Life) : Program Tree × World × Actor := (l.program, l.world, l.origin)

theorem Life.birth_pass (l : Life) (j : Job) (s : Signal) : (l.pass j s).birth = l.birth := rfl

theorem Life.birth_stop (l : Life) : l.stop.birth = l.birth := rfl

theorem Life.alone_of_birth {l : Life} {p : Program Tree} {w : World} {a : Actor}
    (h : l.birth = (p, w, a)) : l.alone = Interpreter.alone p w a := by
  cases h
  rfl

namespace Timeline

variable {c : Timeline} {n k : Nat} {l : Life} {p : Program Tree} {w : World} {a : Actor}

/-- The act at place `k` of the history is a start, and it began run `n`. -/
def AcceptedAt (h : List Act) (k n : Nat) (p : Program Tree) (w : World) (a : Actor) : Prop :=
  ∃ t initial, h[k]? = some (.start t w initial) ∧
    (after (h.take k)).interpreter.admission t w initial = .ok (.ok (p, a)) ∧
    n = (after (h.take k)).interpreter.accepted + 1

/-- The act at place `k` of the history is a start, and it is refused. -/
def RefusedAt (h : List Act) (k : Nat) : Prop :=
  ∃ t w initial r, h[k]? = some (.start t w initial) ∧
    (after (h.take k)).interpreter.admission t w initial = .ok (.error r)

theorem refusedAt_snoc (h : List Act) (x : Act) :
    RefusedAt (h ++ [x]) k ↔ RefusedAt h k ∨ k = h.length ∧ ∃ t w initial r,
      x = .start t w initial ∧ (after h).interpreter.admission t w initial = .ok (.error r) := by
  unfold RefusedAt
  rcases Nat.lt_trichotomy k h.length with hk | rfl | hk
  · rw [List.getElem?_append_left hk, List.take_append_of_le_length (Nat.le_of_lt hk)]
    constructor
    · exact .inl
    · rintro (hl | ⟨rfl, -⟩)
      · exact hl
      · omega
  · simp
  · have hnone : (h ++ [x])[k]? = none := by
      rw [List.getElem?_eq_none_iff, List.length_append, List.length_singleton]; omega
    have hnone' : h[k]? = none := by rw [List.getElem?_eq_none_iff]; omega
    simp [hnone, hnone']
    omega

theorem AcceptedAt.snoc {h : List Act} (hk : AcceptedAt h k n p w a) (x : Act) :
    AcceptedAt (h ++ [x]) k n p w a := by
  obtain ⟨t, initial, hget, hadm, hn⟩ := hk
  have hlt : k < h.length := (List.getElem?_eq_some_iff.mp hget).1
  refine ⟨t, initial, ?_, ?_, ?_⟩
  · rw [List.getElem?_append_left hlt]; exact hget
  · rw [List.take_append_of_le_length (Nat.le_of_lt hlt)]; exact hadm
  · rw [List.take_append_of_le_length (Nat.le_of_lt hlt)]; exact hn

/-! ## Accepted starts -/

theorem birth_resume (hl : c.lives n = some l) (m : Nat) :
    ∃ l', (c.resume m).lives n = some l' ∧ l'.birth = l.birth := by
  by_cases hm : m = n
  · subst hm
    cases hj : l.job with
    | none => exact ⟨l, by rw [resume_of_over hl hj, hl], rfl⟩
    | some j =>
      exact ⟨_, by rw [resume_of_job hl hj, lives_settle_self], Life.birth_pass ..⟩
  · exact ⟨l, (lives_resume_ne (Ne.symm hm)).trans hl, rfl⟩

theorem Valid.birth_carry (hv : c.Valid) (hl : c.lives n = some l) (x : Act) :
    ∃ l', (c.carry x).lives n = some l' ∧ l'.birth = l.birth := by
  cases x with
  | start t w initial =>
    exact ⟨l, (start_frame (hv.bounded n l hl) t w initial).1.trans hl, rfl⟩
  | resume m => exact birth_resume hl m
  | stop => exact ⟨l.stop, lives_stop hl, l.birth_stop⟩
  | seed state => cases state <;> exact ⟨l, hl, rfl⟩
  | reset w => exact ⟨l, hl, rfl⟩

theorem birth_after {h : List Act} (hl : (after h).lives n = some l) (more : List Act) :
    ∃ l', (after (h ++ more)).lives n = some l' ∧ l'.birth = l.birth := by
  induction more using List.reverseRecOn with
  | nil => exact ⟨l, by rw [List.append_nil]; exact hl, rfl⟩
  | append_singleton more x ih =>
    obtain ⟨l', hl', hb'⟩ := ih
    obtain ⟨l₂, hl₂, hb₂⟩ := (valid_after _).birth_carry hl' x
    rw [← List.append_assoc, after_snoc]
    exact ⟨l₂, hl₂, hb₂.trans hb'⟩

/-- The history up to an accepted start and with it. -/
theorem AcceptedAt.split {h : List Act} (hk : AcceptedAt h k n p w a) :
    n = (after (h.take k)).interpreter.accepted + 1 ∧
      (after (h.take k)).interpreter.isRunning = false ∧
      after (h.take (k + 1)) = { ((after (h.take k)).enter p w a).resume n with
        acts := (after (h.take k)).acts + 1 } := by
  obtain ⟨t, initial, hget, hadm, rfl⟩ := hk
  have htake : h.take (k + 1) = h.take k ++ [.start t w initial] := by
    rw [List.take_add_one, hget]; rfl
  refine ⟨rfl, Interpreter.isRunning_of_admission hadm, ?_⟩
  rw [htake, after_snoc, act, carry, start_of_accepted hadm]

theorem AcceptedAt.life_at {h : List Act} (hk : AcceptedAt h k n p w a) :
    ∃ l, (after (h.take (k + 1))).lives n = some l ∧ l.birth = (p, w, a) := by
  obtain ⟨rfl, -, hsplit⟩ := hk.split
  obtain ⟨l, hl, hb⟩ := birth_resume (lives_enter_self (c := after (h.take k)) (p := p) (w := w)
    (a := a)) ((after (h.take k)).interpreter.accepted + 1)
  exact ⟨l, by rw [hsplit]; exact hl, hb⟩

theorem AcceptedAt.life {h : List Act} (hk : AcceptedAt h k n p w a) :
    ∃ l, (after h).lives n = some l ∧ l.birth = (p, w, a) := by
  obtain ⟨l, hl, hb⟩ := hk.life_at
  obtain ⟨l', hl', hb'⟩ := birth_after hl (h.drop (k + 1))
  rw [List.take_append_drop] at hl'
  exact ⟨l', hl', hb'.trans hb⟩

/-- Only an accepted start adds a run. -/
theorem lives_carry_of_none {x : Act} (hn : c.lives n = none) (hl : (c.carry x).lives n = some l) :
    ∃ t w initial p a, x = .start t w initial ∧
      c.interpreter.admission t w initial = .ok (.ok (p, a)) ∧
      n = c.interpreter.accepted + 1 := by
  cases x with
  | start t w initial =>
    rcases c.start_cases t w initial with ⟨e, -, h⟩ | ⟨r, -, h⟩ | ⟨p, a, hadm, h⟩
    · rw [carry, h, hn] at hl; cases hl
    · rw [carry, h] at hl
      exact absurd (hn.symm.trans hl) (by simp)
    · refine ⟨t, w, initial, p, a, rfl, hadm, ?_⟩
      by_contra hne
      rw [carry, h, lives_resume_ne hne, lives_enter_ne hne, hn] at hl
      cases hl
  | resume m =>
    by_cases hm : n = m
    · subst hm; rw [carry, resume_of_none hn, hn] at hl; cases hl
    · rw [carry, lives_resume_ne hm, hn] at hl; cases hl
  | stop =>
    rw [show (c.carry .stop).lives n = (c.lives n).map Life.stop from rfl, hn] at hl
    cases hl
  | seed state => cases state <;> exact absurd (hn.symm.trans hl) (by simp)
  | reset w => exact absurd (hn.symm.trans hl) (by simp)

theorem acceptedAt_of_life {h : List Act} (hl : (after h).lives n = some l) :
    ∃ k p w a, AcceptedAt h k n p w a := by
  induction h using List.reverseRecOn generalizing l with
  | nil => cases hl
  | append_singleton h x ih =>
    cases hb : (after h).lives n with
    | some l' =>
      obtain ⟨k, p, w, a, hk⟩ := ih hb
      exact ⟨k, p, w, a, hk.snoc x⟩
    | none =>
      rw [after_snoc, lives_act] at hl
      obtain ⟨t, w, initial, p, a, rfl, hadm, rfl⟩ := lives_carry_of_none hb hl
      refine ⟨h.length, p, w, a, t, initial, by simp, ?_, ?_⟩
      · rw [List.take_left]; exact hadm
      · rw [List.take_left]

theorem exists_life_iff (h : List Act) (n : Nat) :
    (∃ l, (after h).lives n = some l) ↔ ∃ k p w a, AcceptedAt h k n p w a := by
  constructor
  · rintro ⟨l, hl⟩
    exact acceptedAt_of_life hl
  · rintro ⟨k, p, w, a, hk⟩
    obtain ⟨l, hl, -⟩ := hk.life
    exact ⟨l, hl⟩

/-! ## Refused starts -/

theorem start_ne_run : Sender.start k ≠ .run n := by
  intro he
  cases he

/-- Only a refused start shows something in its own name. -/
theorem shown_start_carry {x : Act} (hx : ¬ (k = c.acts ∧ ∃ t w initial r,
      x = .start t w initial ∧ c.interpreter.admission t w initial = .ok (.error r))) :
    (c.carry x).shown (.start k) = c.shown (.start k) := by
  cases x with
  | start t w initial =>
    rcases c.start_cases t w initial with ⟨e, -, h⟩ | ⟨r, hadm, h⟩ | ⟨p, a, -, h⟩
    · rw [carry, h]
    · have hk : Sender.start c.acts ≠ .start k := by
        intro he
        cases he
        exact hx ⟨rfl, t, w, initial, r, rfl, hadm⟩
      rw [carry, h, shown, shownOf_append]
      show shownOf _ c.log ++ shownOf _ ((Signal.reported false none).shownBy _) = _
      rw [shownOf_shownBy_ne hk, List.append_nil]
      rfl
    · rw [carry, h, shown_resume_ne start_ne_run]
      rfl
  | resume n => exact shown_resume_ne start_ne_run
  | stop => rfl
  | seed state => cases state <;> rfl
  | reset w => rfl

/-- A refused start calls back one failure at its place, and nothing else is called back there. -/
theorem shown_start_after (h : List Act) (k : Nat) :
    (RefusedAt h k → (after h).shown (.start k) = [.reported false]) ∧
      (¬ RefusedAt h k → (after h).shown (.start k) = []) := by
  induction h using List.reverseRecOn with
  | nil =>
    refine ⟨?_, fun _ => rfl⟩
    rintro ⟨t, w, initial, r, hget, -⟩
    cases hget
  | append_singleton h x ih =>
    -- The last act is the refused start that is asked about, or it leaves what was shown alone.
    rw [refusedAt_snoc, after_snoc, shown_act]
    by_cases hx : k = h.length ∧ ∃ t w initial r, x = .start t w initial ∧
        (after h).interpreter.admission t w initial = .ok (.error r)
    · refine ⟨fun _ => ?_, fun hn => absurd (.inr hx) hn⟩
      obtain ⟨rfl, t, w, initial, r, rfl, ha⟩ := hx
      have hbefore : (after h).shown (.start h.length) = [] := by
        refine ih.2 ?_
        rintro ⟨t', w', initial', r', hget, -⟩
        rw [List.getElem?_eq_none (Nat.le_refl _)] at hget
        cases hget
      rw [carry, start_of_refused ha, shown, shownOf_append, acts_after]
      show (after h).shown _ ++ shownOf _ ((Signal.reported false none).shownBy _) = _
      rw [hbefore, shownOf_shownBy]
      rfl
    · rw [shown_start_carry (by rw [acts_after]; exact hx)]
      exact ⟨fun hr => ih.1 (hr.resolve_right hx), fun hr => ih.2 fun hr' => hr (.inl hr')⟩

end Timeline

end BlockGrid
