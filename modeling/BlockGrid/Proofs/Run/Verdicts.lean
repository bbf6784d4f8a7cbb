import BlockGrid.Proofs.Run.Interleaving
import Mathlib.Data.List.Nodup

/-!
# BlockGrid.Proofs.Run.Verdicts

Every verdict that is called back, and where it comes from.

* `verdictsOf_shown`  — a run calls back one verdict if it came to its own end unstopped, else none.
* `verdicts_correspond` — so the verdicts are those of the refused starts and of such runs, one
  each.
-/

namespace BlockGrid

namespace Timeline

variable {c : Timeline} {n k : Nat} {l : Life} {sender : Sender}

/-! ## The verdicts of one sender -/

theorem mem_verdicts {b : Bool} :
    (sender, b) ∈ c.verdicts ↔ b ∈ verdictsOf (c.shown sender) := by
  simp only [verdicts, verdictsOf, shown, shownOf, List.mem_filterMap, Option.map_eq_some_iff]
  constructor
  · rintro ⟨x, hx, b', hb, he⟩
    cases he
    exact ⟨x.event, ⟨x, hx, if_pos rfl⟩, hb⟩
  · rintro ⟨e, ⟨x, hx, he⟩, hb⟩
    by_cases hs : x.sender = sender
    · rw [if_pos hs] at he
      cases he
      exact ⟨x, hx, b, hb, by rw [hs]⟩
    · rw [if_neg hs] at he
      cases he

theorem count_verdicts (log : List Shown) (sender : Sender) :
    ((log.filterMap fun x => x.event.verdict?.map fun b => (x.sender, b)).map Prod.fst).count
      sender = (verdictsOf (shownOf sender log)).length := by
  induction log with
  | nil => rfl
  | cons x log ih =>
    rw [← List.singleton_append, List.filterMap_append, List.map_append, List.count_append, ih,
      shownOf_append, verdictsOf, verdictsOf, List.filterMap_append, List.length_append]
    congr 1
    by_cases hs : x.sender = sender
    · cases he : x.event.verdict? <;> simp [shownOf, hs, he]
    · cases he : x.event.verdict? <;> simp [shownOf, hs, he]

/-! ## Runs -/

theorem verdictsOf_alone (l : Life) : verdictsOf l.alone = [l.verdict] := by
  rw [← verdictsOf_calls, Life.calls_alone, Life.verdictsOf_script]

theorem verdictsOf_moved (as : List Actor) : verdictsOf (as.map .moved) = [] := by
  induction as with
  | nil => rfl
  | cons a as ih => exact ih

/-- The verdict is the last callback of a script: who has not called back all has not reported. -/
theorem verdictsOf_shown (hv : c.Valid) (hl : c.lives n = some l) :
    verdictsOf (c.shown (.run n)) = if l.reached then [l.verdict] else [] := by
  have hkeeps := hv.keeps n l hl
  rw [← verdictsOf_calls]
  cases hr : l.reached with
  | true =>
    rw [hkeeps.whole.mp hr, Life.verdictsOf_script, if_pos rfl]
  | false =>
    have hne : calls (c.shown (.run n)) ≠ l.script := by
      intro he
      rw [hkeeps.whole.mpr he] at hr
      cases hr
    rcases List.prefix_concat_iff.mp hkeeps.told with he | hpre
    · exact absurd he hne
    · have hsub := hpre.filterMap Event.verdict?
      rw [show List.filterMap Event.verdict? (List.map Event.moved _) = [] from verdictsOf_moved _]
        at hsub
      exact List.prefix_nil.mp hsub

theorem Valid.reached_eq_false (hv : c.Valid) (hl : c.lives n = some l)
    (hnone : verdictsOf (c.shown (.run n)) = []) : l.reached = false := by
  rw [verdictsOf_shown hv hl] at hnone
  cases hr : l.reached with
  | false => rfl
  | true => rw [hr] at hnone; cases hnone

/-! ## All verdicts -/

theorem verdictsOf_shown_le_one (h : List Act) (sender : Sender) :
    (verdictsOf ((after h).shown sender)).length ≤ 1 := by
  cases sender with
  | start k =>
    by_cases hr : RefusedAt h k
    · rw [(shown_start_after h k).1 hr]; exact Nat.le_refl _
    · rw [(shown_start_after h k).2 hr]; exact Nat.zero_le _
  | run n =>
    cases hl : (after h).lives n with
    | none => rw [(valid_after h).silent n hl]; exact Nat.zero_le _
    | some l =>
      rw [verdictsOf_shown (valid_after h) hl]
      cases l.reached <;> simp

theorem mem_verdicts_start (h : List Act) {b : Bool} :
    (.start k, b) ∈ (after h).verdicts ↔ RefusedAt h k ∧ b = false := by
  rw [mem_verdicts]
  by_cases hr : RefusedAt h k
  · rw [(shown_start_after h k).1 hr]
    simp [verdictsOf, Event.verdict?, hr]
  · rw [(shown_start_after h k).2 hr]
    simp [verdictsOf, hr]

theorem mem_verdicts_run (h : List Act) {b : Bool} :
    (.run n, b) ∈ (after h).verdicts ↔
      ∃ l, (after h).lives n = some l ∧ l.reached = true ∧ b = l.verdict := by
  rw [mem_verdicts]
  cases hl : (after h).lives n with
  | none => simp [(valid_after h).silent n hl, verdictsOf]
  | some l =>
    rw [verdictsOf_shown (valid_after h) hl]
    cases hr : l.reached <;> simp [hr]

/-- Every verdict that is called back comes from one refused start, as a failure, or from one run
that came to its own end before a stop, as the verdict it gives alone; and each of these calls back
one. A refused start does so at once, whatever runs. A run that was never stopped does so at its
end, after all its states; a run that is stopped before its verdict never gives one. -/
theorem verdicts_correspond (h : List Act) :
    let c := after h
    (c.verdicts.map Prod.fst).Nodup ∧
    (∀ k b, (.start k, b) ∈ c.verdicts ↔ RefusedAt h k ∧ b = false) ∧
    (∀ n b, (.run n, b) ∈ c.verdicts ↔
      ∃ l, c.lives n = some l ∧ l.reached = true ∧ verdictsOf l.alone = [b]) ∧
    (∀ k, RefusedAt h k → (after (h.take (k + 1))).log =
      (after (h.take k)).log ++ [⟨.start k, .reported false⟩]) ∧
    (∀ n l, c.lives n = some l → l.job = none → l.stopped = false → l.reached = true ∧
      ∃ b, calls (c.shown (.run n)) = (c.states n).map .moved ++ [.reported b]) ∧
    (∀ k n l, h[k]? = some .stop → (after (h.take k)).lives n = some l → l.job ≠ none →
      verdictsOf ((after (h.take k)).shown (.run n)) = [] →
      verdictsOf (c.shown (.run n)) = []) := by
  have hv := valid_after h
  refine ⟨?_, fun k b => mem_verdicts_start h, fun n b => ?_, ?_, ?_, ?_⟩
  · rw [List.nodup_iff_count_le_one]
    intro sender
    rw [verdicts, count_verdicts]
    exact verdictsOf_shown_le_one h sender
  · rw [mem_verdicts_run]
    simp only [verdictsOf_alone, List.cons.injEq, and_true, eq_comm]
  · rintro k ⟨t, w, initial, r, hget, ha⟩
    have hlt : k < h.length := (List.getElem?_eq_some_iff.mp hget).1
    have htake : h.take (k + 1) = h.take k ++ [.start t w initial] := by
      rw [List.take_add_one, hget]; rfl
    rw [htake, after_snoc, log_act, carry, start_of_refused ha, acts_after,
      List.length_take_of_le (Nat.le_of_lt hlt)]
  · intro n l hl hover hst
    have hcalls := (hv.keeps n l hl).rest hst
    rw [Life.rest, hover, List.append_nil] at hcalls
    refine ⟨(hv.keeps n l hl).whole.mpr hcalls, l.verdict, ?_⟩
    rw [states_eq_calls, hcalls, Life.script, statesOf_script]
    rfl
  · intro k n l hget hl hpend hnone
    have hlt : k < h.length := (List.getElem?_eq_some_iff.mp hget).1
    have htake : h.take (k + 1) = h.take k ++ [.stop] := by
      rw [List.take_add_one, hget]; rfl
    have hstop : (after (h.take (k + 1))).lives n = some l.stop := by
      rw [htake, after_snoc, lives_act, lives_stop hl]
    have hst : l.stop.stopped = true := by
      rw [Life.stop, Option.isSome_iff_ne_none.mpr hpend, Bool.or_true]
    obtain ⟨l', -, -, hshown⟩ := stopped_after hstop hst (h.drop (k + 1))
    rw [List.take_append_drop] at hshown
    rw [hshown, htake, after_snoc]
    exact hnone

end Timeline

end BlockGrid
