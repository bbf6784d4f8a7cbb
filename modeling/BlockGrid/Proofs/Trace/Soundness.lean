import BlockGrid.Proofs.Grid.Footsteps
import BlockGrid.Proofs.Grid.Rebuild
import BlockGrid.Proofs.Trace.Comparisons
import BlockGrid.Proofs.Trace.Warnings
import Mathlib.Data.List.Nodup

/-!
# BlockGrid.Proofs.Trace.Soundness

Nothing is doubtful about the states of a path.

* `World.Tidy`      — on an open cell with a known facing, and nothing collected twice.
* `tidy_of_next?`   — every motion that is made keeps this.
* `check_of_tidy`   — a tidy state is checked without a warning.
* `checkAll_prefix` — so are the states of a path, up to any of them.
* `Trace.check_eq_nil` — and so is a trace of such states whose verdict goes with its outcome.
-/

namespace BlockGrid

/-- The sides of a board as the check takes them. -/
def World.bounds (w : World) : Bounds := ⟨.int w.rows, .int w.cols⟩

/-! ## What the check asks of integers -/

namespace Bounds

theorem within_int (n side : Int) :
    within (.int n) (.int side) = .ok (decide (0 ≤ n) && decide (n < side)) := by
  have hnumber : (Json.int n).number? = some (.ofInt n) := rfl
  simp only [within_of_number hnumber, Extended.inside_ofInt, Bool.decide_and]

theorem contains_of_inside {w : World} {c : Cell} (h : c.inside w.rows w.cols = true) :
    w.bounds.contains (.ofCell c) = .ok true := by
  obtain ⟨hrow, hrow', hcol, hcol'⟩ := of_decide_eq_true h
  have hrows : within (.int c.1) (.int w.rows) = .ok true := by
    rw [within_int, decide_eq_true hrow, decide_eq_true hrow']
    rfl
  have hcols : within (.int c.2) (.int w.cols) = .ok true := by
    rw [within_int, decide_eq_true hcol, decide_eq_true hcol']
    rfl
  show (do
    if ← within (.int c.1) (.int w.rows) then within (.int c.2) (.int w.cols)
    else pure false) = _
  rw [hrows]
  exact hcols

end Bounds

namespace LooseCell

theorem same_ofCell (c d : Cell) : (ofCell c).same (ofCell d) = (c == d) := by
  show ((Extended.ofInt c.1).same (.ofInt d.1) && (Extended.ofInt c.2).same (.ofInt d.2)) = _
  rw [Extended.same_ofInt, Extended.same_ofInt]
  rfl

theorem hasRepeats_ofCell {cells : List Cell} (h : cells.Nodup) :
    hasRepeats (cells.map ofCell) = false := by
  induction cells with
  | nil => rfl
  | cons c cells ih =>
    obtain ⟨hc, hrest⟩ := List.nodup_cons.mp h
    rw [List.map_cons, hasRepeats, ih hrest, Bool.or_false, List.any_map, List.any_eq_false]
    intro d hd hsame
    rw [Function.comp_apply, same_ofCell, beq_iff_eq] at hsame
    exact hc (hsame ▸ hd)

end LooseCell

/-! ## States of a path -/

namespace World

variable {w : World} {a b : Actor} {m : Motion}

structure Tidy (w : World) (a : Actor) : Prop where
  contains : w.contains a = true
  distinct : a.collected.Nodup

/-- What a motion gathers was not held before. -/
theorem distinct_enter (h : a.collected.Nodup) (c : Cell) :
    (w.enter a c).actor.collected.Nodup := by
  rw [collected_enter]
  cases hc : (w.enter a c).collected with
  | none => rwa [Option.toList_none, List.append_nil]
  | some d =>
    obtain ⟨-, -, hnew⟩ := enter_collected_eq_some.mp hc
    rw [Option.toList_some]
    exact h.append (List.nodup_singleton d) (List.disjoint_singleton.mpr hnew)

theorem tidy_of_next? (h : w.Tidy a) (hn : w.next? a m = some b) : w.Tidy b := by
  refine ⟨contains_of_next? h.contains hn, ?_⟩
  obtain ⟨r, hr, hlegal, rfl⟩ := next?_eq_some_iff.mp hn
  obtain ⟨d, -, ⟨way, -, rfl⟩ | ⟨-, -, rfl⟩⟩ := legal_cases hr hlegal
  · exact h.distinct
  · exact distinct_enter h.distinct _

/-- No step is taken back. -/
theorem stepCount_le_of_next? (hn : w.next? a m = some b) : a.stepCount ≤ b.stepCount := by
  obtain ⟨r, hr, hlegal, rfl⟩ := next?_eq_some_iff.mp hn
  obtain ⟨d, -, ⟨way, -, rfl⟩ | ⟨-, -, rfl⟩⟩ := legal_cases hr hlegal
  · exact Int.le_refl _
  · rw [stepCount_enter]
    omega

end World

namespace Snapshot

variable {w : World} {a b : Actor}

theorem directionWarnings_of_known (h : Direction.isKnown a.direction = true) (i : Nat) :
    directionWarnings i (.ofActor a) = [] := if_pos h

theorem boundsWarnings_of_inside (h : a.position.inside w.rows w.cols = true) (i : Nat) :
    boundsWarnings i w.bounds (.ofActor a) = .ok [] := by
  have hgiven : w.bounds.areGiven = true := rfl
  have hcell : (LooseActor.ofActor a).position = .ofCell a.position := rfl
  rw [boundsWarnings, if_pos hgiven, hcell, Bounds.contains_of_inside h]
  rfl

theorem repeatWarnings_of_nodup (h : a.collected.Nodup) (i : Nat) :
    repeatWarnings i (.ofActor a) = .ok [] := by
  rw [repeatWarnings, show (LooseActor.ofActor a).collected = a.collected.map .ofCell from rfl,
    withoutHash?_ofCell, LooseCell.hasRepeats_ofCell h]
  rfl

theorem check_of_tidy (h : w.Tidy a) (i : Nat) : (ofActor a).check i w.bounds = .ok [] := by
  have hcontains := h.contains
  rw [World.contains, Bool.and_eq_true] at hcontains
  have hinside : a.position.inside w.rows w.cols = true := (Bool.and_eq_true_iff.mp hcontains.2).1
  have hcoordinates : coordinateWarnings i (.ofActor a) = [] := rfl
  rw [ofActor, check, boundsWarnings_of_inside hinside, repeatWarnings_of_nodup h.distinct]
  simp only [bind, Except.bind, hcoordinates, directionWarnings_of_known hcontains.1]
  rfl

theorem stepWarnings_of_le (h : a.stepCount ≤ b.stepCount) (i : Nat) :
    (ofActor b).stepWarnings i (.int a.stepCount) = .ok [] := by
  have hless : isLess (.int b.stepCount) (.int a.stepCount) = .ok false := by
    show Except.ok ((Extended.ofInt b.stepCount).lt (.ofInt a.stepCount)) = _
    rw [Extended.lt_ofInt, decide_eq_false (by omega)]
  rw [stepWarnings, show (ofActor b).stepCount? = some (.int b.stepCount) from rfl]
  simp only [hless]
  rfl

/-- By induction on the motions; the state before is tidy and the steps so far are its own. -/
theorem checkAll_prefix {states : List Actor} {ms : List Motion} (h : w.Tidy a)
    (hpath : states <+: w.path a ms) (i : Nat) :
    checkAll w.bounds i (.int a.stepCount) (states.map .ofActor) = .ok [] := by
  induction ms generalizing a states i with
  | nil =>
    obtain rfl := List.prefix_nil.mp hpath
    rfl
  | cons m ms ih =>
    cases hn : w.next? a m with
    | none =>
      rw [World.path_of_blocked hn] at hpath
      obtain rfl := List.prefix_nil.mp hpath
      rfl
    | some b =>
      rw [World.path_of_next? hn] at hpath
      cases states with
      | nil => rfl
      | cons c rest =>
        obtain ⟨rfl, hrest⟩ := List.cons_prefix_cons.mp hpath
        have hc : w.Tidy c := World.tidy_of_next? h hn
        have hsteps : (ofActor c).stepCount?.getD (.int a.stepCount) = .int c.stepCount := rfl
        rw [List.map_cons, checkAll, check_of_tidy hc,
          stepWarnings_of_le (World.stepCount_le_of_next? hn), hsteps, ih hc hrest (i + 1)]
        rfl

end Snapshot

/-! ## The whole trace -/

namespace Outcome

theorem isOutcome_name (o : Outcome) : (Json.str o.name).isOutcome = true := by
  cases o <;> decide

theorem eq_of_name {o o' : Outcome} (h : o.name = o'.name) : o = o' := by
  cases o <;> cases o' <;> first | rfl | exact absurd h (by decide)

end Outcome

namespace Trace

variable {w : World} {a : Actor} {t : Trace Actor} {ms : List Motion}

/-- The outcome as it is recorded. -/
def outcomeOf (o : Option Outcome) : Json := Json.ofOption (fun o => .str o.name) o

theorem outcomeWarnings_of_outcome {σ : Type} {t : Trace σ} {o : Option Outcome}
    (h : t.outcome = outcomeOf o) : t.outcomeWarnings = .ok [] := by
  have hknown : (t.outcome.isNull || t.outcome.isOutcome) = true := by
    rw [h]
    cases o with
    | none => rfl
    | some o => exact o.isOutcome_name
  rw [outcomeWarnings, if_pos hknown]

theorem verdictWarnings_of_verdict {σ : Type} {t : Trace σ} {o : Option Outcome}
    (h : t.outcome = outcomeOf o) (hverdict : t.success = .null ∨ o ≠ some .cancelled) :
    t.verdictWarnings = [] := by
  rw [verdictWarnings, h]
  rcases hverdict with hnull | hother
  · rw [hnull]
    rfl
  · cases o with
    | none => rw [if_neg]; simp [outcomeOf, Json.ofOption, Json.same, Json.sameNumber, Json.number?]
    | some o =>
      have hname : o.name ≠ Outcome.cancelled.name := fun he =>
        hother (congrArg some (Outcome.eq_of_name he))
      rw [if_neg]
      simp [outcomeOf, Json.ofOption, Json.same, hname]

theorem check_eq_nil {o : Option Outcome} (htidy : w.Tidy a) (hinitial : t.initial = some a)
    (hpath : t.states <+: w.path a ms) (houtcome : t.outcome = outcomeOf o)
    (hverdict : t.success = .null ∨ o ≠ some .cancelled) :
    t.loose.check w.bounds = .ok [] := by
  have hsteps : t.loose.stepsBefore = .int a.stepCount := by
    show (t.initial.map LooseActor.ofActor).elim (.int 0) LooseActor.stepCount = _
    rw [hinitial]
    rfl
  refine check_eq_nil_iff.mpr ⟨outcomeWarnings_of_outcome houtcome,
    verdictWarnings_of_verdict houtcome hverdict, ?_⟩
  rw [hsteps]
  exact Snapshot.checkAll_prefix htidy hpath 0

end Trace

end BlockGrid
