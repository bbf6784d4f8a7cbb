import BlockGrid.Proofs.Run.Lives

/-!
# BlockGrid.Proofs.Run.Histories

What holds of an interpreter and its runs after every history.

* `Timeline.Valid` — every run keeps to its script, and the mark of the interpreter stands for the
  one run, if any, that it has not let go of.
* `valid_carry`    — every act preserves this. A start that is accepted is an entry followed by a
  first piece, so the pieces are looked at once, in `valid_resume`.
* `valid_after`    — so it holds after every history.
-/

namespace BlockGrid

namespace Timeline

open Interpreter

structure Valid (c : Timeline) : Prop where
  bounded : ∀ n l, c.lives n = some l → n ≤ c.interpreter.accepted
  silent : ∀ n, c.lives n = none → c.shown (.run n) = []
  owned : ∀ n l j, c.lives n = some l → l.job = some j → j.run = n
  newest : ∀ n, c.Running n → n = c.interpreter.accepted
  marked : ∀ n b, c.interpreter.mark = some (n, b) ↔ n = c.interpreter.accepted ∧
    ∃ l, c.lives n = some l ∧ l.job.isSome = true ∧ l.stopped = b
  keeps : ∀ n l, c.lives n = some l → l.Keeps (c.shown (.run n))

section Settle

variable {c : Timeline} {n m : Nat} {l : Life} {j : Job} {r : Interpreter × List Log × Signal}

theorem lives_settle_self : (c.settle n l j r).lives n = some (l.pass j r.2.2) :=
  Function.update_self ..

theorem lives_settle_ne (h : m ≠ n) : (c.settle n l j r).lives m = c.lives m :=
  Function.update_of_ne h ..

theorem shown_settle_self :
    (c.settle n l j r).shown (.run n) = c.shown (.run n) ++ r.2.2.events := by
  rw [shown, settle, shownOf_append, shownOf_shownBy]
  rfl

theorem shown_settle_ne {sender : Sender} (h : sender ≠ .run n) :
    (c.settle n l j r).shown sender = c.shown sender := by
  rw [shown, settle, shownOf_append, shownOf_shownBy_ne h.symm, List.append_nil]
  rfl

theorem run_ne (h : m ≠ n) : Sender.run m ≠ Sender.run n := by
  intro he
  cases he
  exact h rfl

/-- The other runs are as they were; what is asked of run `n` and of the mark is left to show. -/
theorem valid_settle (hv : c.Valid) (hl : c.lives n = some l) (hj : l.job = some j)
    (hacc : r.1.accepted = c.interpreter.accepted)
    (hrun : ∀ k, r.2.2.job? = some k → k.run = n)
    (hkeeps : (l.pass j r.2.2).Keeps (c.shown (.run n) ++ r.2.2.events))
    (hmark : ∀ m b, r.1.mark = some (m, b) ↔
      c.interpreter.mark = some (m, b) ∧ (m = n → r.2.2.job?.isSome = true)) :
    (c.settle n l j r).Valid := by
  refine ⟨?_, ?_, ?_, ?_, ?_, ?_⟩
  · intro m l' hl'
    show m ≤ r.1.accepted
    rw [hacc]
    by_cases hm : m = n
    · subst hm; exact hv.bounded m l hl
    · rw [lives_settle_ne hm] at hl'; exact hv.bounded m l' hl'
  · intro m hm'
    by_cases hm : m = n
    · subst hm; rw [lives_settle_self] at hm'; cases hm'
    · rw [lives_settle_ne hm] at hm'
      rw [shown_settle_ne (run_ne hm)]
      exact hv.silent m hm'
  · intro m l' k hl' hk
    by_cases hm : m = n
    · subst hm
      rw [lives_settle_self] at hl'
      cases hl'
      exact hrun k hk
    · rw [lives_settle_ne hm] at hl'; exact hv.owned m l' k hl' hk
  · rintro m ⟨l', hl', hsome, hst⟩
    show m = r.1.accepted
    rw [hacc]
    by_cases hm : m = n
    · subst hm
      rw [lives_settle_self] at hl'
      cases hl'
      exact hv.newest m ⟨l, hl, by rw [hj]; rfl, hst⟩
    · rw [lives_settle_ne hm] at hl'
      exact hv.newest m ⟨l', hl', hsome, hst⟩
  · -- The mark of run `n` lasts as long as the run goes on; other marks are not touched.
    intro m b
    show r.1.mark = some (m, b) ↔ m = r.1.accepted ∧ _
    rw [hmark, hv.marked, hacc]
    by_cases hm : m = n
    · subst hm
      rw [lives_settle_self]
      constructor
      · rintro ⟨⟨hlast, l', hl', -, hb⟩, hsome⟩
        rw [hl] at hl'
        cases hl'
        exact ⟨hlast, _, rfl, hsome rfl, hb⟩
      · rintro ⟨hlast, l', hl', hsome, hb⟩
        cases hl'
        exact ⟨⟨hlast, l, hl, by rw [hj]; rfl, hb⟩, fun _ => hsome⟩
    · rw [lives_settle_ne hm]
      exact and_iff_left fun he => absurd he hm
  · intro m l' hl'
    by_cases hm : m = n
    · subst hm
      rw [lives_settle_self] at hl'
      cases hl'
      rw [shown_settle_self]
      exact hkeeps
    · rw [lives_settle_ne hm] at hl'
      rw [shown_settle_ne (run_ne hm)]
      exact hv.keeps m l' hl'

theorem lives_resume_ne (h : m ≠ n) : (c.resume n).lives m = c.lives m := by
  unfold resume
  split
  · split
    · exact lives_settle_ne h
    · rfl
  · rfl

theorem shown_resume_ne {sender : Sender} (h : sender ≠ .run n) :
    (c.resume n).shown sender = c.shown sender := by
  unfold resume
  split
  · split
    · exact shown_settle_ne h
    · rfl
  · rfl

/-- A start that is refused is shown as its own; an accepted one is shown as the run it began. -/
theorem start_frame (hm : m ≤ c.interpreter.accepted) (t : Tree) (w : World) (initial : Initial) :
    (c.start t w initial).lives m = c.lives m ∧
      (c.start t w initial).shown (.run m) = c.shown (.run m) := by
  have hne : m ≠ c.interpreter.accepted + 1 := by omega
  rcases c.start_cases t w initial with ⟨e, -, h⟩ | ⟨r, -, h⟩ | ⟨p, a, -, h⟩
  · rw [h]; exact ⟨rfl, rfl⟩
  · rw [h]
    refine ⟨rfl, ?_⟩
    rw [shown, shownOf_append]
    exact List.append_nil _
  · rw [h, lives_resume_ne hne, shown_resume_ne (run_ne hne)]
    exact ⟨lives_enter_ne hne, rfl⟩

end Settle

section Acts

variable {c : Timeline} {m n : Nat} {l : Life} {j : Job}

/-- The run in progress is marked as such. -/
theorem Valid.live (hv : c.Valid) (hn : c.Running n) : c.interpreter.mark = some (n, false) :=
  (hv.marked n false).mpr ⟨hv.newest n hn, hn⟩

theorem Valid.running_unique (hv : c.Valid) (hm : c.Running m) (hn : c.Running n) : m = n :=
  (hv.newest m hm).trans (hv.newest n hn).symm

theorem Valid.isRunning_iff (hv : c.Valid) :
    c.interpreter.isRunning = true ↔ ∃ n, c.Running n := by
  rw [Interpreter.isRunning_iff]
  constructor
  · rintro ⟨n, hn⟩
    exact ⟨n, ((hv.marked n false).mp hn).2⟩
  · rintro ⟨n, hn⟩
    exact ⟨n, hv.live hn⟩

theorem Valid.not_running (hv : c.Valid) (hidle : c.interpreter.isRunning = false) (n : Nat) :
    ¬ c.Running n := by
  intro hn
  rw [hv.isRunning_iff.mpr ⟨n, hn⟩] at hidle
  cases hidle

/-- What resuming comes to: nothing, the last piece of a run, or a piece of the run in progress. -/
theorem Valid.resume_cases (hv : c.Valid) (n : Nat) :
    (∀ l, c.lives n = some l → l.job = none) ∧ c.resume n = c ∨
    ∃ l j, c.lives n = some l ∧ l.job = some j ∧
      ((j.point = .leaving ∨ l.stopped = true) ∧
          (∃ logs, c.resume n = c.settle n l j (j.gone c.interpreter, logs, .ended)) ∨
        j.point ≠ .leaving ∧ l.stopped = false ∧
          ∃ i logs s, Job.Piece j c.interpreter i s ∧ c.resume n = c.settle n l j (i, logs, s)) := by
  cases hl : c.lives n with
  | none => exact .inl ⟨by simp, resume_of_none hl⟩
  | some l =>
    cases hj : l.job with
    | none => exact .inl ⟨by simp [hj], resume_of_over hl hj⟩
    | some j =>
      refine .inr ⟨l, j, rfl, hj, ?_⟩
      have hrun := hv.owned n l j hl hj
      rw [resume_of_job hl hj]
      by_cases hp : j.point = .leaving
      · obtain ⟨logs, hadv⟩ := Job.advance_eq_gone (i := c.interpreter) (.inl hp)
        exact .inl ⟨.inl hp, logs, by rw [hadv]⟩
      cases hst : l.stopped with
      | true =>
        -- The mark may be that of a newer run, or its own with the stop on it; never a live one.
        have hlive : c.interpreter.isLive j.run = false := by
          rw [Bool.eq_false_iff, ne_eq, Interpreter.isLive_iff, hrun, hv.marked]
          rintro ⟨-, l', hl', -, hb⟩
          rw [hl] at hl'
          cases hl'
          rw [hst] at hb
          cases hb
        obtain ⟨logs, hadv⟩ := Job.advance_eq_gone (.inr hlive)
        exact .inl ⟨.inr rfl, logs, by rw [hadv]⟩
      | false =>
        have hlive : c.interpreter.isLive j.run = true := by
          rw [isLive_iff, hrun]
          exact hv.live ⟨l, hl, by rw [hj]; rfl, hst⟩
        obtain ⟨i, logs, s, hadv, hpiece⟩ := Job.piece_of_advance hlive hp
        exact .inr ⟨hp, rfl, i, logs, s, hpiece, by rw [hadv]⟩

theorem valid_resume (hv : c.Valid) (n : Nat) : (c.resume n).Valid := by
  rcases hv.resume_cases n with ⟨-, hc⟩ | ⟨l, j, hl, hj, hcase⟩
  · rw [hc]; exact hv
  rcases hcase with ⟨hgone, logs, hc⟩ | ⟨hp, hst, i, logs, s, hpiece, hc⟩
  · rw [hc]
    have hnone : Signal.ended.job? = none := rfl
    have hrun := hv.owned n l j hl hj
    refine valid_settle hv hl hj (Job.accepted_gone j _) ?_ ?_ ?_
    · intro k hk
      rw [hnone] at hk
      cases hk
    · rw [show (Signal.ended).events = [] from rfl, List.append_nil]
      exact Life.keeps_gone (hv.keeps n l hl) hj hgone
    · intro m b
      rw [Job.mark_gone, hrun, hnone]
      by_cases hh : c.interpreter.holds n = true
      · obtain ⟨b', hb'⟩ := holds_iff.mp hh
        rw [if_pos hh, hb']
        constructor
        · intro he; cases he
        · rintro ⟨he, hne⟩
          cases he
          exact absurd (hne rfl) (by simp)
      · rw [if_neg hh]
        refine (and_iff_left_of_imp ?_).symm
        rintro hb rfl
        exact absurd (holds_iff.mpr ⟨b, hb⟩) hh
  · obtain ⟨hmark, hacc, k, hk, hkrun, -, -⟩ := hpiece.facts
    rw [hc]
    refine valid_settle hv hl hj hacc ?_ (Life.keeps_piece (hv.keeps n l hl) hj hst hp hpiece) ?_
    · intro k' hk'
      rw [hk] at hk'
      cases hk'
      exact hkrun.trans (hv.owned n l j hl hj)
    · intro m b
      rw [hmark, hk]
      exact (and_iff_left fun _ => rfl).symm

/-- Nothing of the lives and the log is touched, and the mark stays. -/
theorem valid_of_mark (hv : c.Valid) (i : Interpreter) (hmark : i.mark = c.interpreter.mark)
    (hacc : i.accepted = c.interpreter.accepted) {log : List Shown}
    (hlog : ∀ n, shownOf (.run n) log = c.shown (.run n)) :
    ({ c with interpreter := i, log := log } : Timeline).Valid where
  bounded m l hl := hacc ▸ hv.bounded m l hl
  silent m hm := (hlog m).trans (hv.silent m hm)
  owned := hv.owned
  newest m hm := (hv.newest m hm).trans hacc.symm
  marked m b := by
    show i.mark = _ ↔ m = i.accepted ∧ _
    rw [hmark, hacc]
    exact hv.marked m b
  keeps m l hl := by
    show l.Keeps (shownOf _ log)
    rw [hlog]
    exact hv.keeps m l hl

theorem valid_stop (hv : c.Valid) : (c.carry .stop).Valid := by
  have hlives : ∀ m l', (c.carry .stop).lives m = some l' →
      ∃ l, c.lives m = some l ∧ l' = l.stop := by
    intro m l' hl'
    obtain ⟨l, hl, he⟩ := Option.map_eq_some_iff.mp hl'
    exact ⟨l, hl, he.symm⟩
  refine ⟨?_, ?_, ?_, ?_, ?_, ?_⟩
  · intro m l' hl'
    obtain ⟨l, hl, -⟩ := hlives m l' hl'
    exact hv.bounded m l hl
  · intro m hm
    exact hv.silent m (Option.map_eq_none_iff.mp hm)
  · intro m l' j hl' hj
    obtain ⟨l, hl, rfl⟩ := hlives m l' hl'
    exact hv.owned m l j hl hj
  · rintro m ⟨l', hl', hsome, hst⟩
    obtain ⟨l, hl, rfl⟩ := hlives m l' hl'
    rw [Life.stop, show l.job.isSome = true from hsome, Bool.or_true] at hst
    cases hst
  · intro m b
    show c.interpreter.stop.mark = _ ↔ m = c.interpreter.accepted ∧ _
    rw [mark_stop, Option.map_eq_some_iff]
    constructor
    · rintro ⟨⟨m', b'⟩, hmark, he⟩
      cases he
      obtain ⟨hlast, l, hl, hsome, -⟩ := (hv.marked _ _).mp hmark
      exact ⟨hlast, l.stop, lives_stop hl, hsome, by rw [Life.stop, hsome, Bool.or_true]⟩
    · rintro ⟨hlast, l', hl', hsome, hb⟩
      obtain ⟨l, hl, rfl⟩ := hlives m l' hl'
      rw [Life.stop, show l.job.isSome = true from hsome, Bool.or_true] at hb
      exact ⟨(m, l.stopped), (hv.marked m _).mpr ⟨hlast, l, hl, hsome, rfl⟩, by rw [← hb]⟩
  · intro m l' hl'
    obtain ⟨l, hl, rfl⟩ := hlives m l' hl'
    exact Life.keeps_stop (hv.keeps m l hl)

theorem Valid.unborn (hv : c.Valid) : c.lives (c.interpreter.accepted + 1) = none := by
  cases hl : c.lives (c.interpreter.accepted + 1) with
  | none => rfl
  | some l => have := hv.bounded _ l hl; omega

/-- A new run has a number of its own, and no other run is in progress. -/
theorem valid_enter (hv : c.Valid) (hidle : c.interpreter.isRunning = false) (p : Program Tree)
    (w : World) (a : Actor) : (c.enter p w a).Valid := by
  refine ⟨?_, ?_, ?_, ?_, ?_, ?_⟩
  · intro m l hl
    show m ≤ c.interpreter.accepted + 1
    by_cases hm : m = c.interpreter.accepted + 1
    · omega
    · rw [lives_enter_ne hm] at hl
      have := hv.bounded m l hl
      omega
  · intro m hm'
    by_cases hm : m = c.interpreter.accepted + 1
    · subst hm; rw [lives_enter_self] at hm'; cases hm'
    · exact hv.silent m ((lives_enter_ne hm).symm.trans hm')
  · intro m l j hl hj
    by_cases hm : m = c.interpreter.accepted + 1
    · subst hm
      rw [lives_enter_self] at hl
      cases hl
      cases hj
      rfl
    · exact hv.owned m l j ((lives_enter_ne hm).symm.trans hl) hj
  · rintro m ⟨l, hl, hsome, hst⟩
    by_cases hm : m = c.interpreter.accepted + 1
    · exact hm
    · exact absurd ⟨l, (lives_enter_ne hm).symm.trans hl, hsome, hst⟩ (hv.not_running hidle m)
  · intro m b
    constructor
    · intro hb
      cases hb
      exact ⟨rfl, _, lives_enter_self, rfl, rfl⟩
    · rintro ⟨rfl, l, hl, -, rfl⟩
      cases lives_enter_self.symm.trans hl
      rfl
  · intro m l hl
    by_cases hm : m = c.interpreter.accepted + 1
    · subst hm
      rw [lives_enter_self] at hl
      cases hl
      rw [show (c.enter p w a).shown _ = c.shown _ from rfl, hv.silent _ hv.unborn]
      exact Life.keeps_new ..
    · exact hv.keeps m l ((lives_enter_ne hm).symm.trans hl)

theorem valid_start (hv : c.Valid) (t : Tree) (w : World) (initial : Initial) :
    (c.start t w initial).Valid := by
  rcases c.start_cases t w initial with ⟨e, -, h⟩ | ⟨r, -, h⟩ | ⟨p, a, hadm, h⟩
  · rw [h]; exact hv
  · rw [h]
    refine valid_of_mark hv (c.interpreter.concluded r.outcome) rfl rfl fun n => ?_
    rw [shownOf_append]
    exact List.append_nil _
  · rw [h]
    exact valid_resume (valid_enter hv (isRunning_of_admission hadm) p w a) _

theorem valid_carry (hv : c.Valid) (x : Act) : (c.carry x).Valid := by
  cases x with
  | start t w initial => exact valid_start hv t w initial
  | resume n => exact valid_resume hv n
  | stop => exact valid_stop hv
  | seed state =>
    cases state with
    | error e => exact hv
    | ok a => exact valid_of_mark hv (c.interpreter.seed a) rfl rfl fun _ => rfl
  | reset w => exact valid_of_mark hv (c.interpreter.reset w) rfl rfl fun _ => rfl

theorem valid_act (hv : c.Valid) (x : Act) : (c.act x).Valid :=
  let h := valid_carry hv x
  ⟨h.bounded, h.silent, h.owned, h.newest, h.marked, h.keeps⟩

theorem valid_fresh : fresh.Valid where
  bounded _ _ h := by cases h
  silent _ _ := rfl
  owned _ _ _ h := by cases h
  newest _ h := by obtain ⟨l, hl, -⟩ := h; cases hl
  marked _ _ := by
    constructor
    · intro h; cases h
    · rintro ⟨-, l, hl, -⟩; cases hl
  keeps _ _ h := by cases h

theorem valid_after (h : List Act) : (after h).Valid := by
  induction h using List.reverseRecOn with
  | nil => exact valid_fresh
  | append_singleton h x ih => rw [after_snoc]; exact valid_act ih x

end Acts

end Timeline

end BlockGrid
