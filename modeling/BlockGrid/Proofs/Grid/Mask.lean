import BlockGrid.Grid.World

/-!
# BlockGrid.Proofs.Grid.Mask

Obstacles as a table with a place for every cell of the board. Negative indices name places too,
counted from the end, so nothing but the look at the bounds keeps a cell outside from being taken
for one inside.

* `Mask`             — the table. `Mask.read?` and `Mask.write?` go by the indices alone.
* `Mask.ofObstacles` — the table of a list of obstacles, each looked at before it is written.
* `Mask.Shows`       — what the table says of the cells inside. It holds of the empty table
  (`shows_clear`) and after every obstacle (`Shows.add`), so of the whole (`ofObstacles_cases`).
* `Shows.isOpen`     — by the table a cell is open exactly if it is inside and no obstacle.
-/

namespace BlockGrid

structure Mask (rows cols : Nat) where
  table : Vector (Vector Bool cols) rows

/-- The board refuses an obstacle, or an index names no place. -/
inductive MaskError where
  | layout (e : LayoutError)
  | outOfRange

namespace Mask

section Table

variable {rows cols : Nat}

def clear : Mask rows cols := ⟨Vector.replicate rows (Vector.replicate cols false)⟩

def read (m : Mask rows cols) (i : Fin rows) (j : Fin cols) : Bool := m.table[i][j]

def write (m : Mask rows cols) (i : Fin rows) (j : Fin cols) : Mask rows cols :=
  ⟨m.table.set i (m.table[i].set j true)⟩

theorem read_clear (i : Fin rows) (j : Fin cols) : (clear : Mask rows cols).read i j = false := by
  simp [read, clear]

theorem read_write (m : Mask rows cols) (i k : Fin rows) (j l : Fin cols) :
    (m.write i j).read k l = if i = k ∧ j = l then true else m.read k l := by
  by_cases hi : i = k
  · subst hi
    by_cases hj : j = l
    · subst hj
      simp [read, write]
    · have hne : j.val ≠ l.val := fun he => hj (Fin.ext he)
      simp [read, write, hj, hne]
  · have hne : i.val ≠ k.val := fun he => hi (Fin.ext he)
    simp [read, write, hi, hne]

/-- The place that an index names in a row of places. -/
def place? (side : Nat) (i : Int) : Option (Fin side) :=
  if h : 0 ≤ i ∧ i < side then some ⟨i.toNat, by omega⟩
  else if h : -side ≤ i ∧ i < 0 then some ⟨(i + side).toNat, by omega⟩
  else none

def read? (m : Mask rows cols) (c : Cell) : Option Bool := do
  let i ← place? rows c.1
  let j ← place? cols c.2
  pure (m.read i j)

def write? (m : Mask rows cols) (c : Cell) : Option (Mask rows cols) := do
  let i ← place? rows c.1
  let j ← place? cols c.2
  pure (m.write i j)

end Table

variable {rows cols : Int} {m : Mask rows.toNat cols.toNat} {c d : Cell} {cells closed : List Cell}

/-- One more obstacle. -/
def add (rows cols : Int) (m : Mask rows.toNat cols.toNat) (c : Cell) :
    Except MaskError (Mask rows.toNat cols.toNat) :=
  if c.inside rows cols then
    match m.write? c with
    | some m' => .ok m'
    | none => .error .outOfRange
  else .error (.layout (.obstacleOutside c rows cols))

def ofObstacles (rows cols : Int) (cells : List Cell) :
    Except MaskError (Mask rows.toNat cols.toNat) := cells.foldlM (add rows cols) clear

/-- A cell outside is closed, and the table is not asked. -/
def isOpen (rows cols : Int) (m : Mask rows.toNat cols.toNat) (c : Cell) : Except MaskError Bool :=
  if c.inside rows cols then
    match m.read? c with
    | some closed => .ok !closed
    | none => .error .outOfRange
  else .ok false

/-! ## Cells inside -/

/-- Inside the bounds every cell has a place of its own. -/
theorem places_of_inside (hc : c.inside rows cols = true) :
    ∃ i j, place? rows.toNat c.1 = some i ∧ place? cols.toNat c.2 = some j ∧
      (i : Int) = c.1 ∧ (j : Int) = c.2 := by
  rw [Cell.inside, decide_eq_true_eq] at hc
  obtain ⟨hrow, hrows, hcol, hcols⟩ := hc
  refine ⟨⟨c.1.toNat, by omega⟩, ⟨c.2.toNat, by omega⟩, dif_pos (by omega), dif_pos (by omega), ?_⟩
  exact ⟨Int.toNat_of_nonneg hrow, Int.toNat_of_nonneg hcol⟩

/-- The table says of every cell inside whether it is one of the cells `closed`. -/
def Shows (m : Mask rows.toNat cols.toNat) (closed : List Cell) : Prop :=
  ∀ c : Cell, c.inside rows cols = true → m.read? c = some (closed.contains c)

theorem shows_clear : Shows (clear : Mask rows.toNat cols.toNat) [] := by
  intro c hc
  obtain ⟨i, j, hi, hj, -, -⟩ := places_of_inside hc
  simp [read?, hi, hj, read_clear]

/-- What is written is seen at the cell itself and nowhere else. -/
theorem Shows.add (h : m.Shows closed) (hc : c.inside rows cols = true) :
    ∃ m', Mask.add rows cols m c = .ok m' ∧ m'.Shows (c :: closed) := by
  obtain ⟨i, j, hi, hj, hrow, hcol⟩ := places_of_inside hc
  refine ⟨m.write i j, by simp [Mask.add, hc, write?, hi, hj], fun d hd => ?_⟩
  obtain ⟨k, l, hk, hl, hrow', hcol'⟩ := places_of_inside hd
  have hsame : (i = k ∧ j = l) ↔ d = c := by
    rw [Prod.ext_iff, Fin.ext_iff, Fin.ext_iff]
    omega
  have hbefore : m.read k l = closed.contains d := by
    have hread := h d hd
    simp only [read?, hk, hl] at hread
    exact Option.some.inj hread
  have hafter : (m.write i j).read? d = some ((m.write i j).read k l) := by
    simp only [read?, hk, hl]
    rfl
  rw [hafter, read_write, hbefore, List.contains_cons]
  by_cases hdc : d = c
  · simp [hsame, hdc]
  · simp [hsame, hdc]

theorem Shows.foldlM_add (h : m.Shows closed) (hcells : ∀ c ∈ cells, c.inside rows cols = true) :
    ∃ m', cells.foldlM (Mask.add rows cols) m = .ok m' ∧ m'.Shows (cells.reverse ++ closed) := by
  induction cells generalizing m closed with
  | nil => exact ⟨m, rfl, h⟩
  | cons c cells ih =>
    obtain ⟨hc, hcells⟩ := List.forall_mem_cons.mp hcells
    obtain ⟨m₁, hadd, hshows⟩ := h.add hc
    obtain ⟨m₂, hfold, hlast⟩ := ih hshows hcells
    refine ⟨m₂, ?_, by simpa using hlast⟩
    rw [List.foldlM_cons, hadd]
    exact hfold

theorem Shows.foldlM_outside (h : m.Shows closed)
    (hc : cells.find? (fun c => !c.inside rows cols) = some c) :
    cells.foldlM (Mask.add rows cols) m = .error (.layout (.obstacleOutside c rows cols)) := by
  induction cells generalizing m closed with
  | nil => cases hc
  | cons d cells ih =>
    rw [List.foldlM_cons]
    cases hd : d.inside rows cols with
    | true =>
      obtain ⟨m₁, hadd, hshows⟩ := h.add hd
      rw [List.find?_cons_of_neg (by simp [hd])] at hc
      rw [hadd]
      exact ih hshows hc
    | false =>
      rw [List.find?_cons_of_pos (by simp [hd])] at hc
      cases hc
      simp only [Mask.add, hd, Bool.false_eq_true, if_false]
      rfl

/-- By the table a cell is open exactly if it is inside and no obstacle. -/
theorem Shows.isOpen (h : m.Shows closed) (c : Cell) :
    Mask.isOpen rows cols m c = .ok (c.isOpen rows cols closed) := by
  unfold Mask.isOpen Cell.isOpen
  cases hc : c.inside rows cols with
  | true =>
    rw [if_pos rfl, h c hc, Bool.true_and]
  | false => rfl

/-! ## All obstacles -/

/-- No index is ever out of range: either the table is made and tells the open cells, or some
obstacle is outside, the first that is come to. -/
theorem ofObstacles_cases (rows cols : Int) (cells : List Cell) :
    (∃ m, ofObstacles rows cols cells = .ok m ∧
      (∀ c ∈ cells, c.inside rows cols = true) ∧
      ∀ c, isOpen rows cols m c = .ok (c.isOpen rows cols cells)) ∨
    ∃ c, cells.find? (fun c => !c.inside rows cols) = some c ∧
      ofObstacles rows cols cells = .error (.layout (.obstacleOutside c rows cols)) := by
  cases hfind : cells.find? (fun c => !c.inside rows cols) with
  | some c => exact .inr ⟨c, rfl, shows_clear.foldlM_outside hfind⟩
  | none =>
    have hinside := List.all_eq_true.mp (World.all_of_find? hfind)
    obtain ⟨m, hm, hshows⟩ := shows_clear.foldlM_add hinside
    refine .inl ⟨m, hm, hinside, fun c => ?_⟩
    rw [hshows.isOpen, Cell.isOpen, Cell.isOpen]
    simp

end Mask

end BlockGrid
