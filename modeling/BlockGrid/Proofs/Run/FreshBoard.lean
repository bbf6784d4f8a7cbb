import BlockGrid.Proofs.Grid.Mask
import BlockGrid.Proofs.Grid.Playable
import BlockGrid.Proofs.Run.Refusals
import BlockGrid.Proofs.Run.Replay

/-!
# BlockGrid.Proofs.Run.FreshBoard

A board fresh from its layout, and starts from the state that it declares.

* `Interpreter.not_invalid_of_resolve` — a start from a state in the world is not refused for it.
* `World.build_iff_playable` — which layouts give a board, what its open cells are, however the
  table of obstacles was filled, and that its declared start is one to begin from.
-/

namespace BlockGrid

namespace Interpreter

variable {i : Interpreter} {t : Tree} {w : World} {initial : Initial} {a : Actor} {r : Refusal}

theorem outcome_of_admission (ha : ∃ a, i.initialState w initial = .ok a)
    (h : i.admission t w initial = .ok (.error r)) : r.outcome ≠ .invalidState := by
  obtain ⟨a, ha⟩ := ha
  unfold admission at h
  split at h
  · cases h
    exact nofun
  split at h
  · cases h
    exact nofun
  · cases h
  split at h
  · cases h
    exact nofun
  · rw [ha] at h
    cases h

theorem not_invalid_of_resolve (hr : initial.resolve i w = .ok a) (ha : w.contains a = true)
    (h : i.start t w initial = .ok (i.refuse r)) : r.outcome ≠ .invalidState := by
  rw [start_eq_admission] at h
  cases hadm : i.admission t w initial with
  | error e => rw [hadm] at h; cases h
  | ok verdict =>
    rw [hadm] at h
    cases verdict with
    | error r' =>
      -- Of the reason the interpreter keeps the outcome, so that is all the two have in common.
      have hsame : some r'.outcome = some r.outcome :=
        congrArg (fun s : Interpreter × List Log × Signal => s.1.lastOutcome) (Except.ok.inj h)
      rw [← Option.some.inj hsame]
      exact outcome_of_admission ⟨a, initialState_ok_iff.mpr ⟨resolve_ok_iff.mp hr, ha⟩⟩ hadm
    | ok run => exact absurd (Except.ok.inj h) (accept_ne_refuse i run.1 w run.2 r)

end Interpreter

namespace World

/-- A layout, handed over by name or not, that there is memory for. It gives a board or fails with
an error of its own, and it gives one exactly if it is playable. The open cells of the board, among
all there are, are those inside the grid that are no obstacles; a table that the obstacles are
written into in any order, once or more often, tells the same. The declared start is in the world,
and a start from it is not refused for its state. -/
theorem build_iff_playable (l : Layout) (hfits : l.Fits) :
    ofArguments l.arguments = (build l).mapError .layout ∧
    ((∃ w, build l = .ok w) ∨ ∃ e, build l = .error e ∧ e.isTooLarge = false) ∧
    ((∃ w, build l = .ok w) ↔ l.Playable) ∧
    ∀ w, build l = .ok w →
      (∀ c, w.isOpen c = true ↔
        (0 ≤ c.1 ∧ c.1 < l.rows ∧ 0 ≤ c.2 ∧ c.2 < l.cols) ∧ c ∉ l.obstacles) ∧
      (∀ cells : List Cell, (∀ c, c ∈ cells ↔ c ∈ l.obstacles) →
        ∃ m, Mask.ofObstacles l.rows l.cols cells = .ok m ∧
          ∀ c, Mask.isOpen l.rows l.cols m c = .ok (w.isOpen c)) ∧
      w.contains w.reset = true ∧
      ∀ (i : Interpreter) t initial r, initial.resolve i w = .ok w.reset →
        i.start t w initial = .ok (i.refuse r) → r.outcome ≠ .invalidState := by
  refine ⟨ofArguments_arguments l, ?_, build_eq_ok_iff hfits, fun w hw => ?_⟩
  · cases hb : build l with
    | ok w => exact .inl ⟨w, rfl⟩
    | error e => exact .inr ⟨e, rfl, isTooLarge_of_build hfits hb⟩
  have hmatches := matches_of_build hw
  refine ⟨fun c => hmatches.isOpen_iff, fun cells hcells => ?_, w.contains_reset,
    fun i t initial r hr => Interpreter.not_invalid_of_resolve hr w.contains_reset⟩
  rcases Mask.ofObstacles_cases l.rows l.cols cells with ⟨m, hm, hinside, hopen⟩ | ⟨c, hc, -⟩
  · refine ⟨m, hm, fun c => ?_⟩
    rw [hopen, Except.ok.injEq, Bool.eq_iff_iff, hmatches.isOpen_iff, Cell.isOpen,
      Bool.and_eq_true, Layout.inside_iff, Layout.Free]
    simp [hcells]
  · have hout : c.inside l.rows l.cols = false := by simpa using List.find?_some hc
    have hmem := (hcells c).mp (List.mem_of_find?_eq_some hc)
    rw [Layout.inside_iff.mpr (hmatches.playable.obstacles_inside c hmem)] at hout
    cases hout

/-- A board of two rows, with an obstacle in the corner that is named twice. -/
def cornered : Layout :=
  ⟨.str "cornered", 2, 3, [(1, 2), (1, 2)], some (0, 2), [], (0, 0), "Right"⟩

/-- The row before the first is closed, though the table would count back to an open cell. -/
theorem build_cornered : cornered.Fits ∧ ∃ w, build cornered = .ok w ∧
    w.isOpen (1, 2) = false ∧ w.isOpen (0, 2) = true ∧ w.isOpen (-1, 1) = false ∧
    w.contains w.reset = true := by
  have hfits : cornered.Fits := fun _ _ => by decide
  have hplayable : cornered.Playable := by
    have hcased : Text.Cased "right".toList "Right".toList :=
      .cons (.inr rfl) (.cons (.inl rfl) (.cons (.inl rfl) (.cons (.inl rfl) (.cons (.inl rfl) .nil))))
    have hfacing : lowercase cornered.facing ∈ ["up", "right", "down", "left"] := by
      rw [show lowercase cornered.facing = "right" from lowercase_of_cased hcased (by decide)]
      decide
    refine ⟨by decide, by decide, ?_, by simp [cornered], hfacing, ?_, ?_, nofun, .nil⟩
    all_goals simp [cornered, Layout.Free, Layout.InGrid]
  obtain ⟨-, -, hbuild, hboards⟩ := build_iff_playable cornered hfits
  obtain ⟨w, hw⟩ := hbuild.mpr hplayable
  obtain ⟨hopen, -, hreset, -⟩ := hboards w hw
  refine ⟨hfits, w, hw, ?_, (hopen _).mpr ⟨by decide, by decide⟩, ?_, hreset⟩
  · rw [Bool.eq_false_iff, ne_eq, hopen]
    decide
  · rw [Bool.eq_false_iff, ne_eq, hopen]
    decide

end World

end BlockGrid
