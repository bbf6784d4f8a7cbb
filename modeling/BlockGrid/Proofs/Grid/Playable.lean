import BlockGrid.Proofs.Grid.Rebuild

/-!
# BlockGrid.Proofs.Grid.Playable

Which layouts give a board.

* `Layout.Free`     — inside the grid and not among the obstacles, as the layout lists them.
* `Layout.Playable` — all that is asked of a layout.
* `World.Matches.playable`, `exists_matches` — boards come of playable layouts, and of all of them.
* `build_eq_ok_iff` — a layout whose size is fit for a board gives one exactly if it is playable,
  and otherwise fails for a reason other than its size (`isTooLarge_of_build`).
-/

namespace BlockGrid

theorem Cell.mem_ascending {c : Cell} {cells : List Cell} : c ∈ ascending cells ↔ c ∈ cells := by
  induction cells with
  | nil => exact Iff.rfl
  | cons d cells ih =>
    show c ∈ insert d (ascending cells) ↔ _
    rw [mem_insert, ih, List.mem_cons]

theorem Direction.exists_ofName?_iff {s : String} :
    (∃ d, ofName? s = some d) ↔ s ∈ ["up", "right", "down", "left"] := by
  unfold ofName?
  constructor
  · rintro ⟨d, hd⟩
    split at hd
    · simp [*]
    split at hd
    · simp [*]
    split at hd
    · simp [*]
    split at hd
    · simp [*]
    · cases hd
  · intro hs
    simp only [List.mem_cons, List.not_mem_nil, or_false] at hs
    rcases hs with rfl | rfl | rfl | rfl
    · exact ⟨.up, rfl⟩
    · exact ⟨.right, rfl⟩
    · exact ⟨.down, rfl⟩
    · exact ⟨.left, rfl⟩

namespace Layout

def InGrid (l : Layout) (c : Cell) : Prop := 0 ≤ c.1 ∧ c.1 < l.rows ∧ 0 ≤ c.2 ∧ c.2 < l.cols

def Free (l : Layout) (c : Cell) : Prop := l.InGrid c ∧ c ∉ l.obstacles

structure Playable (l : Layout) : Prop where
  rows_pos : 0 < l.rows
  cols_pos : 0 < l.cols
  obstacles_inside : ∀ c ∈ l.obstacles, l.InGrid c
  one_objective : ¬ (l.goal ≠ none ∧ l.collectibles ≠ [])
  facing_known : lowercase l.facing ∈ ["up", "right", "down", "left"]
  start_free : l.Free l.start
  goal_free : ∀ c ∈ l.goal, l.Free c
  collectibles_free : ∀ c ∈ l.collectibles, l.Free c
  collectibles_distinct : l.collectibles.Nodup

/-- With both sides positive there is memory for the cells. -/
def Fits (l : Layout) : Prop := 0 < l.rows → 0 < l.cols → l.rows * l.cols < World.memoryLimit

variable {l : Layout} {c : Cell}

theorem inside_iff : c.inside l.rows l.cols = true ↔ l.InGrid c := decide_eq_true_iff

/-- The order of the obstacles makes no difference. -/
theorem isOpen_iff : c.isOpen l.rows l.cols (Cell.ascending l.obstacles) = true ↔ l.Free c := by
  rw [Cell.isOpen, Bool.and_eq_true, inside_iff, Free]
  simp [Cell.mem_ascending]

end Layout

namespace World

variable {l : Layout} {w : World} {e : LayoutError}

theorem isTooLarge_of_furnish (h : furnish l = .error e) : e.isTooLarge = false := by
  rcases furnish_cases l with ⟨w, hw, -⟩ | ⟨e', he, hsize⟩
  · cases hw.symm.trans h
  · cases he.symm.trans h
    exact hsize

theorem Matches.isOpen_iff (h : w.Matches l) {c : Cell} : w.isOpen c = true ↔ l.Free c := by
  rw [isOpen, ← h.rows, ← h.cols, ← h.obstacles, Layout.isOpen_iff]

theorem Matches.playable (h : w.Matches l) : l.Playable where
  rows_pos := h.rows ▸ w.sides_positive.1
  cols_pos := h.cols ▸ w.sides_positive.2
  obstacles_inside c hc := by
    have hin := List.all_eq_true.mp w.obstacles_inside c (h.obstacles ▸ Cell.mem_ascending.mpr hc)
    rw [← h.rows, ← h.cols] at hin
    exact Layout.inside_iff.mp hin
  one_objective := by
    rw [h.goal, h.collectibles]
    rintro ⟨hgoal, hcollectibles⟩
    exact w.one_objective.elim hgoal hcollectibles
  facing_known := Direction.exists_ofName?_iff.mp ⟨_, h.facing⟩
  start_free := h.isOpen_iff.mp (h.start ▸ w.start_open)
  goal_free c hc := by
    rw [h.goal] at hc
    have hopen := w.goal_open
    rw [hc] at hopen
    exact h.isOpen_iff.mp hopen
  collectibles_free c hc := by
    rw [h.collectibles] at hc
    exact h.isOpen_iff.mp (List.all_eq_true.mp w.collectibles_open c hc)
  collectibles_distinct := h.collectibles ▸ w.collectibles_nodup

/-- What is asked of a layout is all that a board needs. -/
theorem exists_matches (h : l.Playable) : ∃ w : World, w.Matches l := by
  obtain ⟨facing, hfacing⟩ := Direction.exists_ofName?_iff.mpr h.facing_known
  refine ⟨⟨l.challengeId, l.rows, l.cols, Cell.ascending l.obstacles, l.goal, l.collectibles,
    l.start, facing, ?_, ?_, ?_, ?_, ?_, h.collectibles_distinct⟩,
    ⟨rfl, rfl, rfl, rfl, rfl, rfl, rfl, hfacing⟩⟩
  · exact List.all_eq_true.mpr fun c hc =>
      Layout.inside_iff.mpr (h.obstacles_inside c (Cell.mem_ascending.mp hc))
  · have hone := h.one_objective
    rw [not_and_or, not_not, not_not] at hone
    exact hone
  · exact Layout.isOpen_iff.mpr h.start_free
  · cases hgoal : l.goal with
    | none => rfl
    | some c => exact Layout.isOpen_iff.mpr (h.goal_free c hgoal)
  · exact List.all_eq_true.mpr fun c hc => Layout.isOpen_iff.mpr (h.collectibles_free c hc)

/-! ## Sizes -/

theorem checkSize_of_fits (hrows : 0 < l.rows) (hcols : 0 < l.cols) (hfits : l.Fits) :
    checkSize l.rows l.cols = .ok () := by
  have hcells := hfits hrows hcols
  have hless : memoryLimit < countLimit := by decide
  have hle : l.rows * 1 ≤ l.rows * l.cols := Int.mul_le_mul_of_nonneg_left hcols (by omega)
  have hle' : 1 * l.cols ≤ l.rows * l.cols := Int.mul_le_mul_of_nonneg_right hrows (by omega)
  rw [checkSize, if_neg (by omega), if_neg (by omega), if_neg (by omega)]

/-- Where the size is fit for a board it has no further part in it. -/
theorem build_of_fits (hfits : l.Fits) :
    build l = if l.rows ≤ 0 ∨ l.cols ≤ 0 then
      .error (.tooSmall (toString l.rows) (toString l.cols)) else furnish l := by
  unfold build
  split
  · rfl
  · rw [place, checkSize_of_fits (by omega) (by omega) hfits]
    rfl

theorem matches_of_build (h : build l = .ok w) : w.Matches l := by
  unfold build at h
  split at h
  · cases h
  · rw [place] at h
    cases hs : checkSize l.rows l.cols with
    | error e => rw [hs] at h; cases h
    | ok _ =>
      rw [hs] at h
      exact furnish_eq_ok_iff.mp h

theorem build_eq_ok_iff (hfits : l.Fits) : (∃ w, build l = .ok w) ↔ l.Playable := by
  constructor
  · rintro ⟨w, hw⟩
    exact (matches_of_build hw).playable
  · intro h
    obtain ⟨w, hw⟩ := exists_matches h
    have hrows := h.rows_pos
    have hcols := h.cols_pos
    exact ⟨w, by rw [build_of_fits hfits, if_neg (by omega), furnish_eq_ok_iff.mpr hw]⟩

theorem isTooLarge_of_build (hfits : l.Fits) (h : build l = .error e) : e.isTooLarge = false := by
  rw [build_of_fits hfits] at h
  split at h
  · cases h; rfl
  · exact isTooLarge_of_furnish h

end World

end BlockGrid
