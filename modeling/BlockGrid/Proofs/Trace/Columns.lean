import BlockGrid.Proofs.Fallible
import BlockGrid.Trace.Packed

/-!
# BlockGrid.Proofs.Trace.Columns

States in columns and back.

* `Actor.Packable`   — a state whose numbers have thirty-two bits and whose facing is known.
* `Packed.ofStates`  — its columns, said without packing.
* `ofActors_eq_ok`   — packing states that are packable gives these columns.
* `states_ofStates`  — unpacking them gives the states. Before state number `i` the positions stand
  behind the cells of the first `i` states, which is what carries the induction.
-/

namespace BlockGrid

def Cell.Fits (c : Cell) : Prop := Packed.fitsBits 32 c.1 = true ∧ Packed.fitsBits 32 c.2 = true

instance (c : Cell) : Decidable c.Fits := inferInstanceAs (Decidable (_ ∧ _))

namespace Actor

/-- All numbers of the state have thirty-two bits. -/
structure Fits (a : Actor) : Prop where
  row : Packed.fitsBits 32 a.row = true
  col : Packed.fitsBits 32 a.col = true
  body : ∀ c ∈ a.body, c.Fits
  collected : ∀ c ∈ a.collected, c.Fits
  stepCount : Packed.fitsBits 32 a.stepCount = true

structure Packable (a : Actor) : Prop extends Fits a where
  direction : Direction.isKnown a.direction = true

/-- The direction that the facing names; up if it names none. -/
def facing (a : Actor) : Direction := (Direction.ofName? a.direction).getD .up

end Actor

namespace Direction

theorem name_of_ofName? {s : String} {d : Direction} (h : ofName? s = some d) : d.name = s := by
  unfold ofName? at h
  split at h
  · cases h; exact Eq.symm ‹_›
  split at h
  · cases h; exact Eq.symm ‹_›
  split at h
  · cases h; exact Eq.symm ‹_›
  split at h
  · cases h; exact Eq.symm ‹_›
  · cases h

theorem exists_name_of_isKnown {s : String} (h : isKnown s = true) : ∃ d : Direction, d.name = s := by
  obtain ⟨d, hd⟩ := Option.isSome_iff_exists.mp h
  exact ⟨d, name_of_ofName? hd⟩

@[simp] theorem ofName?_name (d : Direction) : ofName? d.name = some d := by
  cases d <;> rfl

end Direction

theorem Actor.name_facing {a : Actor} (h : Direction.isKnown a.direction = true) :
    a.facing.name = a.direction := by
  obtain ⟨d, hd⟩ := Direction.exists_name_of_isKnown h
  rw [Actor.facing, ← hd, Direction.ofName?_name]
  rfl

namespace Packed

variable {states : List Actor}

def ofStates (states : List Actor) : Packed where
  row := states.map Actor.row
  col := states.map Actor.col
  direction := states.map fun a => (a.facing.index : Int)
  stepCount := states.map Actor.stepCount
  bodyLength := states.map fun a => (a.body.length : Int)
  collectedLength := states.map fun a => (a.collected.length : Int)
  bodyCells := states.flatMap Actor.body
  collectedCells := states.flatMap Actor.collected

/-! ## Packing -/

theorem number_int {n : Int} (h : fitsBits 32 n = true) : number (.int n) = .ok n := if_pos h

theorem number_int_of_not {n : Int} (h : ¬ fitsBits 32 n = true) :
    number (.int n) = .error (if fitsBits 64 n then .outOfRange n else .tooLarge) := by
  have hfit : number (.int n) =
      if fitsBits 64 n then .error (.outOfRange n) else .error .tooLarge := if_neg h
  rw [hfit]
  split <;> rfl

theorem cell_ofCell {c : Cell} (h : c.Fits) : cell (.ofCell c) = .ok c := by
  show (do let r ← number (.int c.1); let k ← number (.int c.2); pure (r, k)) = _
  rw [number_int h.1, number_int h.2]
  rfl

theorem directionIndex_ofActor {a : Actor} (h : Direction.isKnown a.direction = true) :
    directionIndex (.ofActor a) = .ok (a.facing.index : Int) := by
  have hd : (LooseActor.ofActor a).facing? = some a.facing := by
    show Direction.ofName? a.direction = _
    rw [← Actor.name_facing h, Direction.ofName?_name]
  rw [directionIndex, hd]

theorem column_ofActor {α : Type} {f : LooseActor → Except PackError α} {g : Actor → α}
    (h : ∀ a ∈ states, f (.ofActor a) = .ok (g a)) :
    column f (states.map Snapshot.ofActor) = .ok (states.map g) := by
  rw [column, List.mapM_map]
  exact mapM_eq_ok_map h

theorem cells_ofCells {cells : List Cell} (h : ∀ c ∈ cells, c.Fits) :
    (cells.map LooseCell.ofCell).mapM cell = .ok cells :=
  mapM_map_eq_ok fun c hc => cell_ofCell (h c hc)

theorem ofActors_eq_ok (h : ∀ a ∈ states, a.Packable) : ofActors states = .ok (ofStates states) := by
  have hbodies : (states.map fun a => a.body.map LooseCell.ofCell).flatten =
      (states.flatMap Actor.body).map LooseCell.ofCell := by
    rw [List.map_flatMap, List.flatMap_def]
  have hcollections : (states.map fun a => a.collected.map LooseCell.ofCell).flatten =
      (states.flatMap Actor.collected).map LooseCell.ofCell := by
    rw [List.map_flatMap, List.flatMap_def]
  have hcells : ∀ f : Actor → List Cell, (∀ a ∈ states, ∀ c ∈ f a, c.Fits) →
      ∀ c ∈ states.flatMap f, c.Fits := by
    intro f hf c hc
    obtain ⟨a, ha, hca⟩ := List.mem_flatMap.mp hc
    exact hf a ha c hca
  rw [ofActors, ofSnapshots, column_ofActor fun a ha => number_int (h a ha).row,
    column_ofActor fun a ha => number_int (h a ha).col,
    column_ofActor fun a ha => directionIndex_ofActor (h a ha).direction,
    column_ofActor fun a ha => number_int (h a ha).stepCount,
    column_ofActor (g := fun a => a.body.map LooseCell.ofCell) fun a _ => rfl,
    column_ofActor (g := fun a => a.collected.map LooseCell.ofCell) fun a _ => rfl]
  simp only [bind, Except.bind, hbodies, hcollections,
    cells_ofCells (hcells _ fun a ha => (h a ha).body),
    cells_ofCells (hcells _ fun a ha => (h a ha).collected)]
  simp [pure, Except.pure, ofStates, Function.comp_def]

/-! ## Unpacking -/

theorem directionAt_index (d : Direction) : directionAt (d.index : Int) = .ok d := by
  cases d <;> rfl

theorem entry_append {α : Type} (done : List α) (x : α) (rest : List α) :
    entry (done ++ x :: rest) done.length = .ok x := by
  rw [entry, List.getElem?_append_right (Nat.le_refl _), Nat.sub_self]
  rfl

theorem slice_append {α : Type} (before xs after : List α) :
    slice (before ++ (xs ++ after)) (before.length : Int) (before.length + xs.length) = xs := by
  have hstart : clip (before ++ (xs ++ after)).length (before.length : Int) = before.length := by
    rw [clip, if_neg (by omega)]
    simp only [List.length_append]
    omega
  have hstop : clip (before ++ (xs ++ after)).length (before.length + xs.length : Int) =
      before.length + xs.length := by
    rw [clip, if_neg (by omega)]
    simp only [List.length_append]
    omega
  rw [slice, hstart, hstop, List.drop_left, Nat.add_sub_cancel_left, List.take_left]

theorem stateAt_ofStates (done : List Actor) {a : Actor} (rest : List Actor)
    (h : Direction.isKnown a.direction = true) :
    (ofStates (done ++ a :: rest)).stateAt done.length (done.flatMap Actor.body).length
        (done.flatMap Actor.collected).length =
      .ok (a, ((done ++ [a]).flatMap Actor.body).length,
        ((done ++ [a]).flatMap Actor.collected).length) := by
  have hcolumn : ∀ {α : Type} (f : Actor → α),
      entry ((done ++ a :: rest).map f) done.length = .ok (f a) := by
    intro α f
    have hlength : (done.map f).length = done.length := by simp
    rw [List.map_append, List.map_cons, ← hlength]
    exact entry_append ..
  have hcells : ∀ f : Actor → List Cell, slice ((done ++ a :: rest).flatMap f)
      ((done.flatMap f).length : Int) ((done.flatMap f).length + (f a).length) = f a := by
    intro f
    rw [List.flatMap_append, List.flatMap_cons]
    exact slice_append ..
  have hstop : ∀ f : Actor → List Cell, (((done ++ [a]).flatMap f).length : Int) =
      (done.flatMap f).length + (f a).length := by
    intro f
    simp
  rw [stateAt, ofStates]
  simp only [hcolumn, directionAt_index, hcells, hstop, bind, Except.bind, pure, Except.pure,
    Actor.name_facing h]

theorem statesFrom_ofStates (done rest : List Actor)
    (h : ∀ a ∈ rest, Direction.isKnown a.direction = true) :
    (ofStates (done ++ rest)).statesFrom done.length (done.flatMap Actor.body).length
      (done.flatMap Actor.collected).length rest.length = .ok rest := by
  induction rest generalizing done with
  | nil => rfl
  | cons a rest ih =>
    have hrest := ih (done ++ [a]) fun b hb => h b (List.mem_cons_of_mem a hb)
    rw [List.append_assoc, List.singleton_append, List.length_append, List.length_singleton]
      at hrest
    rw [List.length_cons, statesFrom, stateAt_ofStates done rest (h a List.mem_cons_self)]
    simp only [bind, Except.bind, hrest]
    rfl

theorem states_ofStates (h : ∀ a ∈ states, Direction.isKnown a.direction = true) :
    (ofStates states).states = .ok states := by
  have hall := statesFrom_ofStates [] states h
  have hlength : (ofStates states).row.length = states.length := List.length_map ..
  rw [Packed.states, hlength]
  exact hall

theorem trajectory_ofStates (states : List Actor) :
    (ofStates states).trajectory = states.map Actor.position := by
  show (states.map Actor.row).zip (states.map Actor.col) = _
  rw [List.zip_map']
  rfl

end Packed

end BlockGrid
