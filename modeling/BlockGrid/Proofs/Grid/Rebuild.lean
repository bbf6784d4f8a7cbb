import BlockGrid.Grid.Arguments
import BlockGrid.Proofs.Grid.Travel
import BlockGrid.Proofs.Number.Value

/-!
# BlockGrid.Proofs.Grid.Rebuild

A board from its own description.

* `Cell.Ascends`      — cells in ascending order, each once. `ascending` makes such lists and leaves
  them as they are.
* `World.Matches`     — a board that says what a layout says; `furnish_eq_ok_iff`, the layout is
  furnished as this board and as no other.
* `World.layout`      — the layout that a board is described by; `place_layout`, it gives the board.
* `Layout.arguments`  — a layout as named arguments, which give the same board as it does
  (`ofArguments_arguments`).
* `ofArguments_config` — the description, without the kind of the board, gives the board again.
-/

namespace BlockGrid

namespace Cell

variable {c d : Cell} {cells : List Cell}

def Ascends (cells : List Cell) : Prop := cells.Pairwise fun c d => c.before d = true

theorem before_iff : c.before d = true ↔ c.1 < d.1 ∨ c.1 = d.1 ∧ c.2 < d.2 := by
  simp [before]

theorem before_trans {e : Cell} (hcd : c.before d = true) (hde : d.before e = true) :
    c.before e = true := by
  rw [before_iff] at *
  omega

theorem before_of_not_before (hne : c ≠ d) (h : ¬ c.before d = true) : d.before c = true := by
  rw [before_iff] at *
  have : ¬ (c.1 = d.1 ∧ c.2 = d.2) := fun he => hne (Prod.ext he.1 he.2)
  omega

theorem mem_insert : d ∈ insert c cells ↔ d = c ∨ d ∈ cells := by
  induction cells with
  | nil => simp [insert]
  | cons e cells ih =>
    unfold insert
    split
    · rename_i he
      subst he
      simp
    split
    · simp
    · rw [List.mem_cons, ih, List.mem_cons]
      exact or_left_comm

theorem ascends_insert (h : Ascends cells) (c : Cell) : Ascends (insert c cells) := by
  induction cells with
  | nil => exact List.pairwise_singleton _ _
  | cons d cells ih =>
    obtain ⟨hd, hrest⟩ := List.pairwise_cons.mp h
    unfold insert
    split
    · exact h
    rename_i hne
    split
    · rename_i hcd
      refine List.pairwise_cons.mpr ⟨fun e he => ?_, h⟩
      rcases List.mem_cons.mp he with rfl | he
      · exact hcd
      · exact before_trans hcd (hd e he)
    · rename_i hcd
      refine List.pairwise_cons.mpr ⟨fun e he => ?_, ih hrest⟩
      rcases mem_insert.mp he with rfl | he
      · exact before_of_not_before hne hcd
      · exact hd e he

theorem ascends_ascending (cells : List Cell) : Ascends (ascending cells) := by
  induction cells with
  | nil => exact List.Pairwise.nil
  | cons c cells ih => exact ascends_insert ih c

/-- Cells that ascend stay where they are. -/
theorem ascending_of_ascends (h : Ascends cells) : ascending cells = cells := by
  induction cells with
  | nil => rfl
  | cons c cells ih =>
    obtain ⟨hc, hrest⟩ := List.pairwise_cons.mp h
    show insert c (ascending cells) = _
    rw [ih hrest]
    cases cells with
    | nil => rfl
    | cons d cells =>
      have hcd := hc d List.mem_cons_self
      have hne : c ≠ d := by
        rintro rfl
        rw [before_iff] at hcd
        omega
      rw [insert, if_neg hne, if_pos hcd]

theorem ascending_ascending (cells : List Cell) : ascending (ascending cells) = ascending cells :=
  ascending_of_ascends (ascends_ascending cells)

end Cell

namespace World

variable {l : Layout} {w : World}

/-- The layout that a board is described by. -/
def layout (w : World) : Layout :=
  ⟨w.challengeId, w.rows, w.cols, w.obstacles, w.goal, w.collectibles, w.start, w.facing.name⟩

theorem find?_of_all {α : Type} {p : α → Bool} {xs : List α} (h : xs.all p = true) :
    xs.find? (fun x => !p x) = none := by
  rw [List.find?_eq_none]
  intro x hx
  simpa using List.all_eq_true.mp h x hx

/-- The board says what the layout says, with its obstacles in any order. -/
structure Matches (w : World) (l : Layout) : Prop where
  challengeId : l.challengeId = w.challengeId
  rows : l.rows = w.rows
  cols : l.cols = w.cols
  obstacles : Cell.ascending l.obstacles = w.obstacles
  goal : l.goal = w.goal
  collectibles : l.collectibles = w.collectibles
  start : l.start = w.start
  facing : Direction.ofName? (lowercase l.facing) = some w.facing

theorem furnish_of_matches (h : w.Matches l) : furnish l = .ok w := by
  obtain ⟨hid, hrows, hcols, hobstacles, hgoal, hcollectibles, hstart, hfacing⟩ := h
  obtain ⟨id, rows, cols, obstacles, goal, collectibles, start, facing, hinside, hone, hopen, hgo,
    hcoll, hnodup⟩ := w
  obtain ⟨lid, lrows, lcols, lobstacles, lgoal, lcollectibles, lstart, lfacing⟩ := l
  simp only at hid hrows hcols hobstacles hgoal hcollectibles hstart hfacing
  subst hid hrows hcols hobstacles hgoal hcollectibles hstart
  unfold furnish
  dsimp only
  have hgoals : lgoal.toList.all (Cell.isOpen lrows lcols (Cell.ascending lobstacles)) = true := by
    cases lgoal with
    | none => rfl
    | some c => simpa using hgo
  split
  · rename_i c hc
    have hnone := find?_of_all hinside
    rw [hnone] at hc
    cases hc
  · rw [dif_pos hone]
    simp only [hfacing]
    rw [dif_pos hopen]
    split
    · rename_i c hc
      have hnone := find?_of_all hgoals
      rw [hnone] at hc
      cases hc
    · split
      · rename_i c hc
        have hnone := find?_of_all hcoll
        rw [hnone] at hc
        cases hc
      · rw [dif_pos hnodup]

/-- A layout is furnished, or there is something in it that a board of any size refuses. -/
theorem furnish_cases (l : Layout) : (∃ w, furnish l = .ok w ∧ w.Matches l) ∨
    ∃ e, furnish l = .error e ∧ e.isTooLarge = false := by
  unfold furnish
  dsimp only
  split
  · exact .inr ⟨_, rfl, rfl⟩
  split
  · split
    · exact .inr ⟨_, rfl, rfl⟩
    rename_i hfacing
    split
    · split
      · exact .inr ⟨_, rfl, rfl⟩
      split
      · exact .inr ⟨_, rfl, rfl⟩
      split
      · exact .inl ⟨_, rfl, rfl, rfl, rfl, rfl, rfl, rfl, rfl, hfacing⟩
      · exact .inr ⟨_, rfl, rfl⟩
    · exact .inr ⟨_, rfl, rfl⟩
  · exact .inr ⟨_, rfl, rfl⟩

theorem matches_of_furnish (h : furnish l = .ok w) : w.Matches l := by
  rcases furnish_cases l with ⟨v, hv, hmatches⟩ | ⟨e, he, -⟩
  · cases hv.symm.trans h
    exact hmatches
  · cases he.symm.trans h

/-- A layout is furnished as the board that says the same, and as no other. -/
theorem furnish_eq_ok_iff : furnish l = .ok w ↔ w.Matches l :=
  ⟨matches_of_furnish, furnish_of_matches⟩

/-- A board that is not too large and has its obstacles in order. -/
theorem place_of_ascending (hsize : checkSize w.rows w.cols = .ok ())
    (hascending : Cell.ascending w.obstacles = w.obstacles) : place w.layout = .ok w := by
  have hsame : checkSize w.layout.rows w.layout.cols = .ok () := hsize
  have hfacing : Direction.ofName? (lowercase w.facing.name) = some w.facing := by
    rw [Actor.lowercase_name, Direction.ofName?_name]
  rw [place, hsame]
  exact furnish_eq_ok_iff.mpr ⟨rfl, rfl, rfl, hascending, rfl, rfl, rfl, hfacing⟩

theorem place_layout (h : place l = .ok w) : place w.layout = .ok w := by
  have hsize : checkSize l.rows l.cols = .ok () := by
    cases hs : checkSize l.rows l.cols with
    | error e => rw [place, hs] at h; cases h
    | ok _ => rfl
  have hfurnish : furnish l = .ok w := by
    rw [place, hsize] at h
    exact h
  have hmatches := furnish_eq_ok_iff.mp hfurnish
  refine place_of_ascending ?_ ?_
  · rw [← hmatches.rows, ← hmatches.cols, hsize]
  · rw [← hmatches.obstacles, Cell.ascending_ascending]

theorem sides_positive (w : World) : 0 < w.rows ∧ 0 < w.cols := by
  have hopen := w.start_open
  rw [Cell.isOpen, Bool.and_eq_true, Cell.inside, decide_eq_true_eq] at hopen
  omega

end World

/-! ## Layouts as arguments -/

def Layout.arguments (l : Layout) : Entries :=
  [("challenge_id", l.challengeId), ("rows", .int l.rows), ("cols", .int l.cols),
    ("obstacles", .arr (l.obstacles.map Cell.toJson)),
    ("goal", Json.ofOption Cell.toJson l.goal),
    ("collectibles", .arr (l.collectibles.map Cell.toJson)),
    ("start", l.start.toJson), ("start_direction", .str l.facing)]

namespace World

variable {l : Layout} {w : World}

theorem spoken_int (n : Int) : (Json.int n).spoken = toString n := by
  show String.ofList (Tree.shownOnto (.int n) []) = _
  rw [Tree.shownOnto, Tree.chars, List.append_nil, String.ofList_toList]

theorem isFlat_int (n : Int) : Arguments.isFlat (.int n) = .ok (decide (n ≤ 0)) :=
  congrArg Except.ok (Extended.le_ofInt n 0)

theorem checkSize_int (rows cols : Int) : Arguments.checkSize (.int rows) (.int cols) =
    if rows ≤ 0 ∨ cols ≤ 0 then .error (.layout (.tooSmall (toString rows) (toString cols)))
    else .ok () := by
  rw [Arguments.checkSize, isFlat_int, isFlat_int, spoken_int, spoken_int]
  by_cases hrows : rows ≤ 0
  · rw [if_pos (.inl hrows), decide_eq_true hrows]
    rfl
  · by_cases hcols : cols ≤ 0
    · rw [if_pos (.inr hcols), decide_eq_false hrows, decide_eq_true hcols]
      rfl
    · rw [if_neg (by omega), decide_eq_false hrows, decide_eq_false hcols]
      rfl

theorem cellsOf_arr (cells : List Cell) :
    Arguments.cellsOf (.arr (cells.map Cell.toJson)) = .ok cells := by
  show (cells.map Cell.toJson).mapM Arguments.cellOf = _
  exact mapM_map_eq_ok fun c _ => rfl

theorem goalOf_ofOption (goal : Option Cell) :
    Arguments.goalOf (Json.ofOption Cell.toJson goal) = .ok goal := by
  cases goal with
  | none => rfl
  | some c => rfl

theorem layoutOf_arguments (l : Layout) :
    Arguments.layoutOf l.arguments (.int l.rows) (.int l.cols) = .ok l := by
  show (do
    let obstacles ← (Arguments.cellsOf (.arr (l.obstacles.map Cell.toJson))).mapError
      ArgumentError.field
    let goal ← (Arguments.goalOf (Json.ofOption Cell.toJson l.goal)).mapError ArgumentError.field
    let collectibles ← (Arguments.cellsOf (.arr (l.collectibles.map Cell.toJson))).mapError
      ArgumentError.field
    pure (⟨l.challengeId, l.rows, l.cols, obstacles, goal, collectibles, l.start,
      l.facing⟩ : Layout)) = _
  rw [cellsOf_arr, goalOf_ofOption, cellsOf_arr]
  rfl

/-- Handed over by name, a layout gives the board that it gives, or fails for the same reason. -/
theorem ofArguments_arguments (l : Layout) :
    ofArguments l.arguments = (build l).mapError .layout := by
  have hnames : l.arguments.checkNames Arguments.taken Arguments.known = .ok () := rfl
  have hrows : l.arguments.get? "rows" = some (.int l.rows) := rfl
  have hcols : l.arguments.get? "cols" = some (.int l.cols) := rfl
  rw [ofArguments, hnames, hrows, hcols]
  show (do
    Arguments.checkSize (.int l.rows) (.int l.cols)
    let layout ← Arguments.layoutOf l.arguments (.int l.rows) (.int l.cols)
    (place layout).mapError ArgumentError.layout) = _
  rw [checkSize_int, layoutOf_arguments, build]
  split <;> rfl

/-- The description without the kind of the board. -/
def description (w : World) : Entries :=
  [("challenge_id", w.challengeId), ("rows", .int w.rows), ("cols", .int w.cols),
    ("obstacles", .arr (w.obstacles.map Cell.toJson)),
    ("goal", Json.ofOption Cell.toJson w.goal),
    ("collectibles", .arr (w.collectibles.map Cell.toJson)),
    ("start", w.start.toJson), ("start_direction", .str w.facing.name)]

theorem ofArguments_description (h : place l = .ok w) : ofArguments w.description = .ok w := by
  have hsame : w.description = w.layout.arguments := rfl
  have hsides := w.sides_positive
  have hplace : build w.layout = place w.layout := if_neg (by simp only [layout]; omega)
  rw [hsame, ofArguments_arguments, hplace, place_layout h]
  rfl

theorem ofArguments_config (h : place l = .ok w) : ∃ entries, w.config = .obj entries ∧
    ofArguments (Entries.erase "variant" entries) = .ok w := by
  refine ⟨w.description ++ [("variant", .str w.variant)], rfl, ?_⟩
  have herase : Entries.erase "variant" (w.description ++ [("variant", .str w.variant)]) =
      w.description := rfl
  rw [herase]
  exact ofArguments_description h

end World

end BlockGrid
