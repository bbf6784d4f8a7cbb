import BlockGrid.Proofs.Grid.Playable
import BlockGrid.Proofs.Trace.Loading
import Mathlib

/-!
# BlockGrid.Proofs.Trace.Packing

Packing and unpacking undo each other, in both directions, and nothing is packed by halves.

* `Packed.InRange`    — a number of thirty-two bits. `packable_iff`, a state is packable when its
  facing is known and all its numbers are in range.
* `exists_blames_of_ofActors` — packing fails for a state that is not, and says what is wrong in it.
* `Packed.Regular`    — columns that fit together, of any origin.
* `exists_ofStates`   — such columns are those of some states. Their first entries make up the first
  state, and what is left fits together again.
* `packing_lossless`  — what is packed, and that nothing is lost on either way.
-/

namespace BlockGrid

namespace Packed

def InRange (n : Int) : Prop := -2147483648 ≤ n ∧ n < 2147483648

instance (n : Int) : Decidable (InRange n) := inferInstanceAs (Decidable (_ ∧ _))

theorem fitsBits_iff {n : Int} : fitsBits 32 n = true ↔ InRange n := by
  rw [fitsBits, decide_eq_true_eq]
  exact Iff.rfl

end Packed

namespace Actor

/-- Every number that the state holds. -/
def numbers (a : Actor) : List Int :=
  [a.row, a.col, a.stepCount] ++ (a.body ++ a.collected).flatMap fun c => [c.1, c.2]

theorem forall_numbers {a : Actor} {P : Int → Prop} : (∀ n ∈ a.numbers, P n) ↔
    (P a.row ∧ P a.col ∧ P a.stepCount) ∧
      (∀ c ∈ a.body, P c.1 ∧ P c.2) ∧ ∀ c ∈ a.collected, P c.1 ∧ P c.2 := by
  have hcells : (∀ n ∈ (a.body ++ a.collected).flatMap fun c => [c.1, c.2], P n) ↔
      ∀ c ∈ a.body ++ a.collected, P c.1 ∧ P c.2 := by
    constructor
    · intro h c hc
      exact ⟨h _ (List.mem_flatMap_of_mem hc (by simp)), h _ (List.mem_flatMap_of_mem hc (by simp))⟩
    · intro h n hn
      obtain ⟨c, hc, hn⟩ := List.mem_flatMap.mp hn
      rcases List.mem_pair.mp hn with rfl | rfl
      · exact (h c hc).1
      · exact (h c hc).2
  rw [numbers, List.forall_mem_append, hcells, List.forall_mem_append]
  simp only [List.forall_mem_cons, List.not_mem_nil, IsEmpty.forall_iff, implies_true, and_true]

theorem packable_iff {a : Actor} : a.Packable ↔
    a.direction ∈ ["up", "right", "down", "left"] ∧ ∀ n ∈ a.numbers, Packed.InRange n := by
  have hknown : Direction.isKnown a.direction = true ↔
      a.direction ∈ ["up", "right", "down", "left"] := by
    rw [Direction.isKnown, Option.isSome_iff_exists, Direction.exists_ofName?_iff]
  simp only [forall_numbers, ← hknown, ← Packed.fitsBits_iff]
  constructor
  · intro h
    exact ⟨h.direction, ⟨h.row, h.col, h.stepCount⟩, h.body, h.collected⟩
  · rintro ⟨hdirection, ⟨hrow, hcol, hstepCount⟩, hbody, hcollected⟩
    exact ⟨⟨hrow, hcol, hbody, hcollected, hstepCount⟩, hdirection⟩

theorem mem_numbers_of_cell {a : Actor} {c : Cell} (h : c ∈ a.body ++ a.collected) :
    c.1 ∈ a.numbers ∧ c.2 ∈ a.numbers := by
  have hcell : ∀ n ∈ [c.1, c.2], n ∈ a.numbers := fun n hn =>
    List.mem_append_right _ (List.mem_flatMap.mpr ⟨c, h, hn⟩)
  exact ⟨hcell _ List.mem_cons_self, hcell _ (List.mem_cons_of_mem _ List.mem_cons_self)⟩

end Actor

namespace Packed

variable {states : List Actor} {p : Packed} {e : PackError}

/-! ## What packing fails for -/

/-- The error says what is wrong in the state: its facing, or a number that does not fit. A number
of more than sixty-four bits is not shown. -/
def Blames (e : PackError) (a : Actor) : Prop :=
  (e = .unknownDirection ∧ a.direction ∉ ["up", "right", "down", "left"]) ∨
    ∃ n ∈ a.numbers, ¬ InRange n ∧ e = if fitsBits 64 n then .outOfRange n else .tooLarge

theorem blames_of_number {a : Actor} {n : Int} (hn : n ∈ a.numbers)
    (h : number (.int n) = .error e) : Blames e a := by
  by_cases hfits : fitsBits 32 n = true
  · cases (number_int hfits).symm.trans h
  · have he := Except.error.inj ((number_int_of_not hfits).symm.trans h)
    exact .inr ⟨n, hn, fun hrange => hfits (fitsBits_iff.mpr hrange), he.symm⟩

theorem blames_of_directionIndex {a : Actor} (h : directionIndex (.ofActor a) = .error e) :
    Blames e a := by
  have hfacing : (LooseActor.ofActor a).facing? = Direction.ofName? a.direction := rfl
  rw [directionIndex, hfacing] at h
  cases hd : Direction.ofName? a.direction with
  | some d => rw [hd] at h; cases h
  | none =>
    rw [hd] at h
    refine .inl ⟨(Except.error.inj h).symm, fun hmem => ?_⟩
    obtain ⟨d, hd'⟩ := Direction.exists_ofName?_iff.mpr hmem
    cases hd.symm.trans hd'

theorem exists_blames_of_column {α : Type} {f : LooseActor → Except PackError α}
    (hf : ∀ a, f (.ofActor a) = .error e → Blames e a)
    (h : column f (states.map Snapshot.ofActor) = .error e) : ∃ a ∈ states, Blames e a := by
  obtain ⟨s, hs, hfs⟩ := exists_of_mapM_eq_error h
  obtain ⟨a, ha, rfl⟩ := List.mem_map.mp hs
  exact ⟨a, ha, hf a hfs⟩

/-- Cells are packed one after another, state after state. -/
theorem exists_blames_of_cells {f : Actor → List Cell}
    (hf : ∀ a, ∀ c ∈ f a, c.1 ∈ a.numbers ∧ c.2 ∈ a.numbers)
    (h : (states.map fun a => (f a).map LooseCell.ofCell).flatten.mapM cell = .error e) :
    ∃ a ∈ states, Blames e a := by
  obtain ⟨s, hs, hfs⟩ := exists_of_mapM_eq_error h
  obtain ⟨group, hgroup, hs⟩ := List.mem_flatten.mp hs
  obtain ⟨a, ha, rfl⟩ := List.mem_map.mp hgroup
  obtain ⟨c, hc, rfl⟩ := List.mem_map.mp hs
  refine ⟨a, ha, ?_⟩
  rcases cases_of_bind_eq_error hfs with hrow | ⟨r, -, hfs⟩
  · exact blames_of_number (hf a c hc).1 hrow
  rcases cases_of_bind_eq_error hfs with hcol | ⟨k, -, hfs⟩
  · exact blames_of_number (hf a c hc).2 hcol
  · cases hfs

/-- Column after column: each fails for its own values, those of lengths never. -/
theorem exists_blames_of_ofActors (h : ofActors states = .error e) :
    ∃ a ∈ states, Blames e a := by
  have hheld : ∀ a : Actor, ∀ n ∈ [a.row, a.col, a.stepCount], n ∈ a.numbers :=
    fun a n hn => List.mem_append_left _ hn
  rcases cases_of_bind_eq_error h with h | ⟨row, -, h⟩
  · exact exists_blames_of_column (fun a => blames_of_number (hheld a _ (by simp))) h
  rcases cases_of_bind_eq_error h with h | ⟨col, -, h⟩
  · exact exists_blames_of_column (fun a => blames_of_number (hheld a _ (by simp))) h
  rcases cases_of_bind_eq_error h with h | ⟨direction, -, h⟩
  · exact exists_blames_of_column (fun a => blames_of_directionIndex) h
  rcases cases_of_bind_eq_error h with h | ⟨stepCount, -, h⟩
  · exact exists_blames_of_column (fun a => blames_of_number (hheld a _ (by simp))) h
  rw [column_ofActor (g := fun a => a.body.map LooseCell.ofCell) fun a _ => rfl] at h
  rw [column_ofActor (g := fun a => a.collected.map LooseCell.ofCell) fun a _ => rfl] at h
  rcases cases_of_bind_eq_error h with h | ⟨bodies, hbodies, h⟩
  · cases h
  rcases cases_of_bind_eq_error h with h | ⟨collections, hcollections, h⟩
  · cases h
  rw [← Except.ok.inj hbodies, ← Except.ok.inj hcollections] at h
  rcases cases_of_bind_eq_error h with h | ⟨bodyCells, -, h⟩
  · exact exists_blames_of_cells
      (fun a c hc => Actor.mem_numbers_of_cell (List.mem_append_left _ hc)) h
  rcases cases_of_bind_eq_error h with h | ⟨collectedCells, -, h⟩
  · exact exists_blames_of_cells
      (fun a c hc => Actor.mem_numbers_of_cell (List.mem_append_right _ hc)) h
  · cases h

/-! ## Columns that fit together -/

/-- Every state has its entry in every column, and the cells are cut up without a rest. -/
structure Regular (p : Packed) : Prop where
  cols : p.col.length = p.row.length
  directions : p.direction.length = p.row.length
  stepCounts : p.stepCount.length = p.row.length
  bodyLengths : p.bodyLength.length = p.row.length
  collectedLengths : p.collectedLength.length = p.row.length
  row_inRange : ∀ n ∈ p.row, InRange n
  col_inRange : ∀ n ∈ p.col, InRange n
  direction_known : ∀ n ∈ p.direction, 0 ≤ n ∧ n < 4
  stepCount_inRange : ∀ n ∈ p.stepCount, InRange n
  bodyLength_nonneg : ∀ n ∈ p.bodyLength, 0 ≤ n
  collectedLength_nonneg : ∀ n ∈ p.collectedLength, 0 ≤ n
  bodyCells_inRange : ∀ c ∈ p.bodyCells, InRange c.1 ∧ InRange c.2
  collectedCells_inRange : ∀ c ∈ p.collectedCells, InRange c.1 ∧ InRange c.2
  body_total : p.bodyLength.sum = p.bodyCells.length
  collected_total : p.collectedLength.sum = p.collectedCells.length

/-- What is left of a column of cells when the first state has taken its own. -/
theorem total_drop {n : Int} {ns : List Int} {cells : List Cell} (hn : ∀ m ∈ n :: ns, 0 ≤ m)
    (h : (n :: ns).sum = cells.length) :
    ns.sum = (cells.drop n.toNat).length ∧ ((cells.take n.toNat).length : Int) = n := by
  obtain ⟨hfirst, hothers⟩ := List.forall_mem_cons.mp hn
  have hrest : 0 ≤ ns.sum := List.sum_nonneg hothers
  rw [List.sum_cons] at h
  rw [List.length_drop, List.length_take]
  omega

theorem index_ofIndex {n : Int} (h : 0 ≤ n ∧ n < 4) :
    ((Direction.ofIndex n.toNat).index : Int) = n := by
  have hcases : n = 0 ∨ n = 1 ∨ n = 2 ∨ n = 3 := by omega
  rcases hcases with rfl | rfl | rfl | rfl <;> rfl

theorem facing_ofDirection (d : Direction) (row col : Int) (body collected : List Cell) (n : Int) :
    (Actor.mk row col d.name body collected n).facing = d := by
  rw [Actor.facing, Direction.ofName?_name]
  rfl

theorem ofStates_cons (a : Actor) (states : List Actor) :
    ofStates (a :: states) =
      let rest := ofStates states
      ⟨a.row :: rest.row, a.col :: rest.col, (a.facing.index : Int) :: rest.direction,
        a.stepCount :: rest.stepCount, (a.body.length : Int) :: rest.bodyLength,
        (a.collected.length : Int) :: rest.collectedLength, a.body ++ rest.bodyCells,
        a.collected ++ rest.collectedCells⟩ := rfl

section First

variable {r k d n b c : Int} {row col direction stepCount bodyLength collectedLength : List Int}
  {bodyCells collectedCells : List Cell}

/-- The state that the first entries make up. -/
def firstOf (r k d n b c : Int) (bodyCells collectedCells : List Cell) : Actor :=
  ⟨r, k, (Direction.ofIndex d.toNat).name, bodyCells.take b.toNat, collectedCells.take c.toNat, n⟩

theorem Regular.rest (h : Regular ⟨r :: row, k :: col, d :: direction, n :: stepCount,
      b :: bodyLength, c :: collectedLength, bodyCells, collectedCells⟩) :
    Regular ⟨row, col, direction, stepCount, bodyLength, collectedLength,
      bodyCells.drop b.toNat, collectedCells.drop c.toNat⟩ where
  cols := Nat.succ.inj h.cols
  directions := Nat.succ.inj h.directions
  stepCounts := Nat.succ.inj h.stepCounts
  bodyLengths := Nat.succ.inj h.bodyLengths
  collectedLengths := Nat.succ.inj h.collectedLengths
  row_inRange := (List.forall_mem_cons.mp h.row_inRange).2
  col_inRange := (List.forall_mem_cons.mp h.col_inRange).2
  direction_known := (List.forall_mem_cons.mp h.direction_known).2
  stepCount_inRange := (List.forall_mem_cons.mp h.stepCount_inRange).2
  bodyLength_nonneg := (List.forall_mem_cons.mp h.bodyLength_nonneg).2
  collectedLength_nonneg := (List.forall_mem_cons.mp h.collectedLength_nonneg).2
  bodyCells_inRange c hc := h.bodyCells_inRange c (List.mem_of_mem_drop hc)
  collectedCells_inRange c hc := h.collectedCells_inRange c (List.mem_of_mem_drop hc)
  body_total := (total_drop h.bodyLength_nonneg h.body_total).1
  collected_total := (total_drop h.collectedLength_nonneg h.collected_total).1

theorem Regular.packable_firstOf (h : Regular ⟨r :: row, k :: col, d :: direction, n :: stepCount,
      b :: bodyLength, c :: collectedLength, bodyCells, collectedCells⟩) :
    (firstOf r k d n b c bodyCells collectedCells).Packable := by
  refine Actor.packable_iff.mpr ⟨?_, Actor.forall_numbers.mpr ⟨⟨?_, ?_, ?_⟩, ?_, ?_⟩⟩
  · show (Direction.ofIndex d.toNat).name ∈ _
    cases Direction.ofIndex d.toNat <;> decide
  · exact (List.forall_mem_cons.mp h.row_inRange).1
  · exact (List.forall_mem_cons.mp h.col_inRange).1
  · exact (List.forall_mem_cons.mp h.stepCount_inRange).1
  · exact fun c hc => h.bodyCells_inRange c (List.mem_of_mem_take hc)
  · exact fun c hc => h.collectedCells_inRange c (List.mem_of_mem_take hc)

theorem Regular.ofStates_firstOf {states : List Actor}
    (h : Regular ⟨r :: row, k :: col, d :: direction, n :: stepCount,
      b :: bodyLength, c :: collectedLength, bodyCells, collectedCells⟩)
    (hrest : ofStates states = ⟨row, col, direction, stepCount, bodyLength, collectedLength,
      bodyCells.drop b.toNat, collectedCells.drop c.toNat⟩) :
    ofStates (firstOf r k d n b c bodyCells collectedCells :: states) =
      ⟨r :: row, k :: col, d :: direction, n :: stepCount, b :: bodyLength, c :: collectedLength,
        bodyCells, collectedCells⟩ := by
  have hdirection := index_ofIndex (List.forall_mem_cons.mp h.direction_known).1
  have hbody := (total_drop h.bodyLength_nonneg h.body_total).2
  have hcollected := (total_drop h.collectedLength_nonneg h.collected_total).2
  rw [ofStates_cons, hrest, firstOf, facing_ofDirection, hdirection]
  simp only [hbody, hcollected, List.take_append_drop]

end First

theorem exists_ofStates (h : p.Regular) :
    ∃ states, (∀ a ∈ states, a.Packable) ∧ ofStates states = p := by
  obtain ⟨row, col, direction, stepCount, bodyLength, collectedLength, bodyCells,
    collectedCells⟩ := p
  -- One entry of the rows is one of every other column.
  induction row generalizing col direction stepCount bodyLength collectedLength bodyCells
      collectedCells with
  | nil =>
    obtain rfl := List.eq_nil_of_length_eq_zero h.cols
    obtain rfl := List.eq_nil_of_length_eq_zero h.directions
    obtain rfl := List.eq_nil_of_length_eq_zero h.stepCounts
    obtain rfl := List.eq_nil_of_length_eq_zero h.bodyLengths
    obtain rfl := List.eq_nil_of_length_eq_zero h.collectedLengths
    obtain rfl := List.eq_nil_of_length_eq_zero (Int.natCast_eq_zero.mp h.body_total.symm)
    obtain rfl := List.eq_nil_of_length_eq_zero (Int.natCast_eq_zero.mp h.collected_total.symm)
    exact ⟨[], nofun, rfl⟩
  | cons r row ih =>
    obtain ⟨k, col, rfl⟩ := List.exists_cons_of_length_eq_add_one h.cols
    obtain ⟨d, direction, rfl⟩ := List.exists_cons_of_length_eq_add_one h.directions
    obtain ⟨n, stepCount, rfl⟩ := List.exists_cons_of_length_eq_add_one h.stepCounts
    obtain ⟨b, bodyLength, rfl⟩ := List.exists_cons_of_length_eq_add_one h.bodyLengths
    obtain ⟨c, collectedLength, rfl⟩ := List.exists_cons_of_length_eq_add_one h.collectedLengths
    obtain ⟨states, hstates, hrest⟩ := ih _ _ _ _ _ _ _ h.rest
    exact ⟨firstOf r k d n b c bodyCells collectedCells :: states,
      List.forall_mem_cons.mpr ⟨h.packable_firstOf, hstates⟩, h.ofStates_firstOf hrest⟩

/-! ## Both ways -/

/-- States are packed just when every facing is known and every number has thirty-two bits, and else
refused for a state of which this does not hold. What is packed is unpacked as it was, and columns
that fit together are unpacked into states that are packed into the same columns. -/
theorem packing_lossless :
    (∀ states, (∃ p, ofActors states = .ok p) ↔ ∀ a ∈ states,
      a.direction ∈ ["up", "right", "down", "left"] ∧ ∀ n ∈ a.numbers, InRange n) ∧
    (∀ states e, ofActors states = .error e → ∃ a ∈ states, Blames e a) ∧
    (∀ states p, ofActors states = .ok p → p.states = .ok states) ∧
    ∀ p : Packed, p.Regular → ∃ states, p.states = .ok states ∧ ofActors states = .ok p := by
  refine ⟨fun states => ?_, fun states e => exists_blames_of_ofActors, fun states p h => ?_,
    fun p h => ?_⟩
  · simp only [← Actor.packable_iff]
    constructor
    · rintro ⟨p, hp⟩
      exact packable_of_ofActors hp
    · intro h
      exact ⟨_, ofActors_eq_ok h⟩
  · obtain ⟨hpackable, rfl⟩ := ofActors_eq_ok_iff.mp h
    exact states_ofStates fun a ha => (hpackable a ha).direction
  · obtain ⟨states, hstates, rfl⟩ := exists_ofStates h
    exact ⟨states, states_ofStates fun a ha => (hstates a ha).direction, ofActors_eq_ok hstates⟩

/-- Three states with trails of different lengths, and columns that were made by no packing. -/
theorem packing_lossless_ragged :
    let states : List Actor := [⟨1, 0, "down", [(0, 0)], [], 1⟩, ⟨1, 1, "right", [], [], 2⟩,
      ⟨2, -2147483648, "up", [(1, 1), (1, 0)], [(1, 1), (2147483647, 0)], 3⟩]
    let columns : Packed := ⟨[5, 5], [0, -1], [3, 0], [0, 9], [0, 2], [1, 0], [(4, 4), (4, 5)],
      [(7, 7)]⟩
    ((∀ a ∈ states, a.direction ∈ ["up", "right", "down", "left"] ∧
        ∀ n ∈ a.numbers, InRange n) ∧ ∃ p, ofActors states = .ok p ∧ p.states = .ok states) ∧
      columns.Regular ∧ ∃ states, columns.states = .ok states ∧ ofActors states = .ok columns := by
  intro states columns
  obtain ⟨hpacked, -, hback, hcolumns⟩ := packing_lossless
  have hall : ∀ a ∈ states, a.direction ∈ ["up", "right", "down", "left"] ∧
      ∀ n ∈ a.numbers, InRange n := by decide
  have hregular : columns.Regular :=
    ⟨rfl, rfl, rfl, rfl, rfl, by decide, by decide, by decide, by decide, by decide, by decide,
      by decide, by decide, rfl, rfl⟩
  obtain ⟨p, hp⟩ := (hpacked states).mpr hall
  exact ⟨⟨hall, p, hp, hback states p hp⟩, hregular, hcolumns columns hregular⟩

end Packed

end BlockGrid
