import BlockGrid.Proofs.Grid.Lockstep
import BlockGrid.Proofs.Grid.Playable
import Mathlib.Data.List.Sort

/-!
# BlockGrid.Proofs.Grid.Relisting

The order in which a layout lists its obstacles and its collectibles, and how often it lists an
obstacle, make no difference.

* `Cell.ascending_congr`  — lists with the same cells are put in the same order.
* `Layout.Relists`        — layouts that differ in how they list obstacles and collectibles only.
* `World.Reordered`       — boards that differ in the order of their collectibles at most. Every
  motion comes to the same in both (`Reordered.step`), and so does the objective.
* `build_relisted`        — what becomes of two such layouts.
* `relisted_alike`        — the whole account. A layout too large for a board is not refused like
  any other that gives none (`endless_not_refused`).
-/

namespace BlockGrid

namespace Cell

variable {cs ds : List Cell}

theorem eq_of_ascends (hcs : Ascends cs) (hds : Ascends ds) (h : ∀ c, c ∈ cs ↔ c ∈ ds) :
    cs = ds := by
  have hirrefl : Std.Irrefl fun c d : Cell => c.before d = true :=
    ⟨fun c hc => by rw [before_iff] at hc; omega⟩
  have hantisymm : Std.Antisymm fun c d : Cell => c.before d = true :=
    ⟨fun c d hcd hdc => by rw [before_iff] at hcd hdc; omega⟩
  exact List.Pairwise.eq_of_mem_iff hcs hds h

/-- Neither the order nor the repeats of a list are left once it ascends. -/
theorem ascending_congr (h : ∀ c, c ∈ cs ↔ c ∈ ds) : ascending cs = ascending ds :=
  eq_of_ascends (ascends_ascending cs) (ascends_ascending ds) fun c => by
    rw [mem_ascending, mem_ascending, h]

end Cell

/-- One layout in two lists: obstacles in any order and any number of times, collectibles in any
order, all else the same. -/
structure Layout.Relists (l l' : Layout) : Prop where
  challengeId : l.challengeId = l'.challengeId
  rows : l.rows = l'.rows
  cols : l.cols = l'.cols
  obstacles : ∀ c, c ∈ l.obstacles ↔ c ∈ l'.obstacles
  goal : l.goal = l'.goal
  collectibles : l.collectibles.Perm l'.collectibles
  start : l.start = l'.start
  facing : l.facing = l'.facing

namespace Layout.Relists

variable {l l' : Layout} {c : Cell}

theorem symm (h : l.Relists l') : l'.Relists l :=
  ⟨h.challengeId.symm, h.rows.symm, h.cols.symm, fun c => (h.obstacles c).symm, h.goal.symm,
    h.collectibles.symm, h.start.symm, h.facing.symm⟩

theorem inGrid_iff (h : l.Relists l') : l.InGrid c ↔ l'.InGrid c := by
  rw [InGrid, InGrid, h.rows, h.cols]

theorem free_iff (h : l.Relists l') : l.Free c ↔ l'.Free c := by
  rw [Free, Free, h.inGrid_iff, h.obstacles]

theorem playable (h : l.Relists l') (hl : l.Playable) : l'.Playable where
  rows_pos := h.rows ▸ hl.rows_pos
  cols_pos := h.cols ▸ hl.cols_pos
  obstacles_inside c hc := h.inGrid_iff.mp (hl.obstacles_inside c ((h.obstacles c).mpr hc))
  one_objective := by
    rintro ⟨hgoal, hcollectibles⟩
    refine hl.one_objective ⟨h.goal ▸ hgoal, fun hnil => hcollectibles ?_⟩
    exact (hnil ▸ h.collectibles).nil_eq.symm
  facing_known := h.facing ▸ hl.facing_known
  start_free := h.free_iff.mp (h.start ▸ hl.start_free)
  goal_free c hc := h.free_iff.mp (hl.goal_free c (h.goal ▸ hc))
  collectibles_free c hc :=
    h.free_iff.mp (hl.collectibles_free c (h.collectibles.mem_iff.mpr hc))
  collectibles_distinct := h.collectibles.nodup_iff.mp hl.collectibles_distinct

end Layout.Relists

/-! ## Boards -/

/-- The same board but for the order of what there is to collect. -/
structure World.Reordered (w v : World) : Prop where
  challengeId : w.challengeId = v.challengeId
  rows : w.rows = v.rows
  cols : w.cols = v.cols
  obstacles : w.obstacles = v.obstacles
  goal : w.goal = v.goal
  collectibles : w.collectibles.Perm v.collectibles
  start : w.start = v.start
  facing : w.facing = v.facing

namespace World.Reordered

variable {w v : World}

theorem isOpen (h : w.Reordered v) (c : Cell) : w.isOpen c = v.isOpen c := by
  rw [World.isOpen, World.isOpen, h.rows, h.cols, h.obstacles]

theorem grows (h : w.Reordered v) : w.grows = v.grows := by
  rw [World.grows, World.grows, h.collectibles.isEmpty_eq]

theorem contains (h : w.Reordered v) (c : Cell) :
    w.collectibles.contains c = v.collectibles.contains c :=
  h.collectibles.contains_eq

theorem enter (h : w.Reordered v) (a : Actor) (c : Cell) : w.enter a c = v.enter a c := by
  rw [World.enter, World.enter, h.grows, h.contains]

theorem step (h : w.Reordered v) (a : Actor) (m : Motion) : w.step a m = v.step a m := by
  cases m with
  | turn way => rfl
  | step =>
    rw [World.step, World.step]
    cases Direction.ofName? a.direction with
    | none => rfl
    | some d => simp only [advance, h.isOpen, h.enter]

/-- Whatever is illegal or fails on the way. -/
theorem results (h : w.Reordered v) (a : Actor) (ms : List Motion) :
    w.results a ms = v.results a ms := by
  induction ms generalizing a with
  | nil => rfl
  | cons m ms ih => rw [World.results, World.results, h.step, ih]

theorem evaluate (h : w.Reordered v) (a : Actor) : w.evaluate a = v.evaluate a := by
  rw [World.evaluate, World.evaluate, h.goal]
  cases v.goal with
  | some g => rfl
  | none => exact h.collectibles.all_eq

theorem variant (h : w.Reordered v) : w.variant = v.variant := by
  rw [World.variant, World.variant, h.goal, h.grows]

/-- Of the description only the entry of the collectibles is another one. -/
theorem config (h : w.Reordered v) : ∃ entries : Entries, w.config = .obj entries ∧
    v.config =
      .obj (Entries.put "collectibles" (.arr (v.collectibles.map Cell.toJson)) entries) := by
  refine ⟨_, rfl, ?_⟩
  rw [World.config, ← h.challengeId, ← h.rows, ← h.cols, ← h.obstacles, ← h.goal, ← h.start,
    ← h.facing, ← h.variant]
  rfl

end World.Reordered

namespace World

variable {l l' : Layout} {w v : World} {e : LayoutError}

theorem Matches.reordered (hw : w.Matches l) (hv : v.Matches l') (h : l.Relists l') :
    w.Reordered v where
  challengeId := hw.challengeId ▸ hv.challengeId ▸ h.challengeId
  rows := hw.rows ▸ hv.rows ▸ h.rows
  cols := hw.cols ▸ hv.cols ▸ h.cols
  obstacles := hw.obstacles ▸ hv.obstacles ▸ Cell.ascending_congr h.obstacles
  goal := hw.goal ▸ hv.goal ▸ h.goal
  collectibles := hw.collectibles ▸ hv.collectibles ▸ h.collectibles
  start := hw.start ▸ hv.start ▸ h.start
  facing := by
    have hfacing := hw.facing
    rw [h.facing, hv.facing] at hfacing
    exact (Option.some.inj hfacing).symm

theorem isTooLarge_of_checkSize {rows cols : Int} (h : checkSize rows cols = .error e) :
    e.isTooLarge = true := by
  unfold checkSize at h
  split at h
  · cases h; rfl
  split at h
  · cases h; rfl
  split at h
  · cases h; rfl
  · cases h

theorem furnish_relisted (h : l.Relists l') :
    (∃ w v, furnish l = .ok w ∧ furnish l' = .ok v ∧ w.Reordered v) ∨
    ∃ e e', furnish l = .error e ∧ furnish l' = .error e' ∧
      e.isTooLarge = false ∧ e'.isTooLarge = false := by
  have hother : ∀ {l l' : Layout} {w : World}, l.Relists l' → w.Matches l →
      ∃ v, furnish l' = .ok v ∧ v.Matches l' := by
    intro l l' w h hw
    obtain ⟨v, hv⟩ := exists_matches (h.playable hw.playable)
    exact ⟨v, furnish_eq_ok_iff.mpr hv, hv⟩
  rcases furnish_cases l with ⟨w, hfurnish, hw⟩ | ⟨e, he, hsize⟩
  · obtain ⟨v, hfurnish', hv⟩ := hother h hw
    exact .inl ⟨w, v, hfurnish, hfurnish', hw.reordered hv h⟩
  · rcases furnish_cases l' with ⟨v, -, hv⟩ | ⟨e', he', hsize'⟩
    · obtain ⟨w, hw, -⟩ := hother h.symm hv
      cases he.symm.trans hw
    · exact .inr ⟨e, e', he, he', hsize, hsize'⟩

/-- Two such layouts both give a board, or both give none for a reason that lies in them, or both
are too large. -/
theorem build_relisted (h : l.Relists l') :
    (∃ w v, build l = .ok w ∧ build l' = .ok v ∧ w.Reordered v) ∨
    ∃ e e', build l = .error e ∧ build l' = .error e' ∧
      (e.isTooLarge = false ∧ e'.isTooLarge = false ∨ e.isTooLarge = true ∧ e' = e) := by
  rw [build, build, place, place, ← h.rows, ← h.cols]
  by_cases hsmall : l.rows ≤ 0 ∨ l.cols ≤ 0
  · rw [if_pos hsmall, if_pos hsmall]
    exact .inr ⟨_, _, rfl, rfl, .inl ⟨rfl, rfl⟩⟩
  · rw [if_neg hsmall, if_neg hsmall]
    cases hsize : checkSize l.rows l.cols with
    | error e => exact .inr ⟨e, e, rfl, rfl, .inr ⟨isTooLarge_of_checkSize hsize, rfl⟩⟩
    | ok _ =>
      rcases furnish_relisted h with hboards | ⟨e, e', he, he', hreasons⟩
      · exact .inl hboards
      · exact .inr ⟨e, e', he, he', .inl hreasons⟩

/-- Layouts handed over by name that differ only in how they list obstacles and collectibles.
Either both are accepted: then the descriptions differ in the order of the collectibles at most, and
from every state every motion of a sequence, legal or not, has the same result, and every state is
judged alike. Or both are refused, or both are too large for there to be memory, with one error. -/
theorem relisted_alike (l l' : Layout) (h : l.Relists l') :
    (∃ w v, ofArguments l.arguments = .ok w ∧ ofArguments l'.arguments = .ok v ∧
      (∃ entries : Entries, w.config = .obj entries ∧ v.config =
        .obj (Entries.put "collectibles" (.arr (v.collectibles.map Cell.toJson)) entries)) ∧
      w.collectibles.Perm v.collectibles ∧
      (∀ a ms, w.results a ms = v.results a ms) ∧ ∀ a, w.evaluate a = v.evaluate a) ∨
    ∃ e e', ofArguments l.arguments = .error (.layout e) ∧
      ofArguments l'.arguments = .error (.layout e') ∧
      (e.isTooLarge = false ∧ e'.isTooLarge = false ∨
        ¬ l.Fits ∧ e.isTooLarge = true ∧ e' = e) := by
  rw [ofArguments_arguments, ofArguments_arguments]
  rcases build_relisted h with ⟨w, v, hw, hv, hr⟩ | ⟨e, e', he, he', hreasons⟩
  · rw [hw, hv]
    exact .inl ⟨w, v, rfl, rfl, hr.config, hr.collectibles, hr.results, hr.evaluate⟩
  · rw [he, he']
    refine .inr ⟨e, e', rfl, rfl, hreasons.imp_right ?_⟩
    rintro ⟨hlarge, hsame⟩
    refine ⟨fun hfits => ?_, hlarge, hsame⟩
    rw [isTooLarge_of_build hfits he] at hlarge
    cases hlarge

/-- The orchard from the other end, with one of its trees twice. -/
def orchardReversed : Layout :=
  { orchard.layout with
    obstacles := [(1, 2), (1, 1), (1, 2)]
    collectibles := [(2, 2), (0, 1)] }

theorem relisted_alike_orchard : orchard.layout.Relists orchardReversed ∧
    ofArguments orchard.layout.arguments = .ok orchard ∧
    ∃ v, ofArguments orchardReversed.arguments = .ok v ∧
      (∀ a ms, orchard.results a ms = v.results a ms) ∧ ∀ a, orchard.evaluate a = v.evaluate a := by
  have hr : orchard.layout.Relists orchardReversed := by
    refine ⟨rfl, rfl, rfl, fun c => ?_, rfl, by decide, rfl, rfl⟩
    simp [layout, orchard, orchardReversed]
    tauto
  have hplace : place orchard.layout = .ok orchard := place_of_ascending rfl rfl
  have horchard : ofArguments orchard.layout.arguments = .ok orchard := ofArguments_description hplace
  refine ⟨hr, horchard, ?_⟩
  rcases relisted_alike _ _ hr with ⟨w, v, hw, hv, -, -, hresults, hevaluate⟩ | ⟨e, -, he, -⟩
  · cases hw.symm.trans horchard
    exact ⟨v, hv, hresults, hevaluate⟩
  · cases he.symm.trans horchard

/-- A board with a side of sixty-four bits. -/
def endless (obstacles : List Cell) : Layout :=
  ⟨.str "endless", 9223372036854775808, 1, obstacles, none, [], (0, 0), "right"⟩

theorem ofArguments_endless (obstacles : List Cell) :
    ofArguments (endless obstacles).arguments = .error (.layout .sideTooLong) := by
  have hsize : checkSize 9223372036854775808 1 = .error .sideTooLong := if_pos (.inl (by decide))
  have hplace : place (endless obstacles) = .error .sideTooLong := by
    show (do checkSize 9223372036854775808 1; furnish (endless obstacles)) = _
    rw [hsize]
    rfl
  have hsides : ¬ ((9223372036854775808 : Int) ≤ 0 ∨ (1 : Int) ≤ 0) := by decide
  have hbuild : build (endless obstacles) = place (endless obstacles) := if_neg hsides
  rw [ofArguments_arguments, hbuild, hplace]
  rfl

/-- It is neither accepted nor refused for what the layout says. -/
theorem endless_not_refused : (endless [(1, 0)]).Relists (endless [(1, 0), (1, 0)]) ∧
    ¬ ((∃ w v, ofArguments (endless [(1, 0)]).arguments = .ok w ∧
        ofArguments (endless [(1, 0), (1, 0)]).arguments = .ok v) ∨
      ∃ e e', ofArguments (endless [(1, 0)]).arguments = .error (.layout e) ∧
        ofArguments (endless [(1, 0), (1, 0)]).arguments = .error (.layout e') ∧
        e.isTooLarge = false ∧ e'.isTooLarge = false) := by
  refine ⟨⟨rfl, rfl, rfl, fun c => by simp [endless], rfl, .refl _, rfl, rfl⟩, ?_⟩
  rw [ofArguments_endless, ofArguments_endless]
  rintro (⟨w, -, hw, -⟩ | ⟨e, -, he, -, hsize, -⟩)
  · cases hw
  · cases he
    cases hsize

end World

end BlockGrid
