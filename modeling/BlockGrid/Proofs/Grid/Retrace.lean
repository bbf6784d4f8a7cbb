import BlockGrid.Proofs.Grid.Lockstep
import BlockGrid.Proofs.Grid.Trail
import BlockGrid.Proofs.Trace.Columns

/-!
# BlockGrid.Proofs.Grid.Retrace

The way back along a clear path.

* `Direction.opposite` — half a turn. A step in the opposite direction leads back
  (`ahead_opposite_ahead`), and so does a quarter turn the other way round (`opposite_turned`).
* `Actor.FacesBack`    — one head on the cell of another, facing the other way.
* `backwards`          — the motions of a path in reverse, each turn the other way round.
* `FacesBack.undo`     — what one motion did is undone by one motion; `FacesBack.retrace`, what a
  path did by the path backwards.
* `walked_back`        — with half a turn before it and after it, it leads to where it all began.
-/

namespace BlockGrid

namespace Direction

def opposite (d : Direction) : Direction := d.clockwise.clockwise

@[simp] theorem opposite_opposite (d : Direction) : d.opposite.opposite = d := by
  cases d <;> rfl

theorem ahead_opposite_ahead (d : Direction) (c : Cell) : d.opposite.ahead (d.ahead c) = c := by
  cases d <;> simp [opposite, clockwise, ahead]

end Direction

namespace Motion

/-- The way that takes a quarter turn back. -/
def otherWay (way : String) : String := if way = "right" then "left" else "right"

def undoing : Motion → Motion
  | .step => .step
  | .turn way => .turn (otherWay way)

end Motion

theorem Direction.opposite_turned (d : Direction) (way : String) :
    (d.turned way).opposite.turned (Motion.otherWay way) = d.opposite := by
  unfold turned Motion.otherWay
  by_cases h : way = "right"
  · rw [if_pos h, if_pos h, if_neg (by decide)]
    cases d <;> rfl
  · rw [if_neg h, if_neg h, if_pos rfl]
    cases d <;> rfl

def backwards (ms : List Motion) : List Motion := (ms.map Motion.undoing).reverse

/-- Half a turn. -/
def aboutTurn : List Motion := [.turn "right", .turn "right"]

def wayBack (ms : List Motion) : List Motion := aboutTurn ++ backwards ms ++ aboutTurn

theorem count_backwards (ms : List Motion) : (backwards ms).count .step = ms.count .step := by
  have hone : ∀ m : Motion, m.undoing = .step ↔ m = .step := by
    intro m
    cases m with
    | step => exact Iff.rfl
    | turn way => exact iff_of_false nofun nofun
  rw [backwards, List.count_reverse, List.count_eq_countP, List.count_eq_countP, List.countP_map]
  refine List.countP_congr fun m _ => ?_
  simpa using hone m

theorem count_wayBack (ms : List Motion) : (wayBack ms).count .step = ms.count .step := by
  simp [wayBack, aboutTurn, count_backwards]

/-- On the cell of another one, facing the other way. -/
structure Actor.FacesBack (b a : Actor) : Prop where
  position : b.position = a.position
  facing : ∃ d, Direction.ofName? a.direction = some d ∧
    Direction.ofName? b.direction = some d.opposite

namespace World

variable {w : World} {a : Actor} {d : Direction}

theorem contains_arrival (ha : w.contains a = true) (ms : List Motion) :
    w.contains (w.arrival a ms) = true := by
  have hmem : w.arrival a ms ∈ a :: w.path a ms := List.getLastD_mem_cons
  rcases List.mem_cons.mp hmem with he | hpath
  · rw [he]
    exact ha
  · exact forall_path contains_of_next? ha ms _ hpath

theorem next?_turn (hd : Direction.ofName? a.direction = some d) (way : String) :
    w.next? a (.turn way) = some { a with direction := (d.turned way).name } := by
  simp only [next?, step, turnName, hd]
  rfl

theorem next?_step (hd : Direction.ofName? a.direction = some d)
    (ho : w.isOpen (d.ahead a.position) = true) :
    w.next? a .step = some (w.enter a (d.ahead a.position)).actor := by
  simp only [next?, step, advance, hd, ho, if_true, enter_legal]

/-- Half a turn is always legal and leaves the head where it is. -/
theorem clears_aboutTurn (w : World) (hd : Direction.ofName? a.direction = some d) :
    w.clears a aboutTurn = true ∧
      w.arrival a aboutTurn = { a with direction := d.opposite.name } := by
  have hfirst := next?_turn (w := w) hd "right"
  have hsecond := next?_turn (w := w) (a := { a with direction := (d.turned "right").name })
    (Direction.ofName?_name _) "right"
  rw [aboutTurn, arrival_cons hfirst, arrival_cons hsecond]
  exact ⟨by simp [clears, hfirst, hsecond], rfl⟩

end World

namespace Actor.FacesBack

open World

variable {w : World} {a b c : Actor} {m : Motion} {ms : List Motion}

/-- What a motion from an open cell did is undone by one motion, facing the other way. -/
theorem undo (hb : b.FacesBack c) (ha : w.contains a = true) (h : w.next? a m = some c) :
    ∃ b', w.next? b m.undoing = some b' ∧ b'.FacesBack a := by
  obtain ⟨-, hopen⟩ := contains_eq_true.mp ha
  obtain ⟨r, hs, hl, rfl⟩ := next?_eq_some_iff.mp h
  obtain ⟨e, hc, hfacing⟩ := hb.facing
  obtain ⟨d, hd, ⟨way, rfl, rfl⟩ | ⟨rfl, -, rfl⟩⟩ := legal_cases hs hl
  · rw [show (turnedTo a (d.turned way)).actor.direction = (d.turned way).name from rfl,
      Direction.ofName?_name] at hc
    cases hc
    refine ⟨_, next?_turn hfacing _, hb.position, d, hd, ?_⟩
    rw [Direction.opposite_turned, Direction.ofName?_name]
  · rw [direction_enter, hd] at hc
    obtain rfl : d = e := Option.some.inj hc
    -- The cell ahead is the one that the step came from.
    have hback : d.opposite.ahead b.position = a.position := by
      rw [hb.position, position_enter, Direction.ahead_opposite_ahead]
    refine ⟨_, next?_step hfacing (by rw [hback]; exact hopen), ?_, d, hd, ?_⟩
    · rw [position_enter, hback]
    · rw [direction_enter, hfacing]

/-- By induction on the path: what follows its first motion is walked back first. -/
theorem retrace (hb : b.FacesBack (w.arrival a ms)) (ha : w.contains a = true)
    (h : w.clears a ms = true) :
    w.clears b (backwards ms) = true ∧ (w.arrival b (backwards ms)).FacesBack a := by
  induction ms generalizing a with
  | nil => exact ⟨rfl, hb⟩
  | cons m ms ih =>
    have hsplit : backwards (m :: ms) = backwards ms ++ [m.undoing] := by
      rw [backwards, List.map_cons, List.reverse_cons, backwards]
    cases hn : w.next? a m with
    | none => simp [clears, hn] at h
    | some c =>
      simp only [clears, hn] at h
      rw [arrival_cons hn] at hb
      obtain ⟨hclears, hback⟩ := ih hb (contains_of_next? ha hn) h
      obtain ⟨b', hlast, hfaces⟩ := hback.undo ha hn
      rw [hsplit, clears_append, hclears, arrival_append hclears, arrival_cons hlast]
      exact ⟨by simp [clears, hlast], hfaces⟩

/-- After half a turn it faces as the other one does. -/
theorem turned (hb : b.FacesBack a) (w : World) :
    w.clears b aboutTurn = true ∧ (w.arrival b aboutTurn).position = a.position ∧
      (w.arrival b aboutTurn).direction = a.direction := by
  obtain ⟨hposition, d, ha, hfacing⟩ := hb
  obtain ⟨hclears, harrival⟩ := clears_aboutTurn w hfacing
  rw [harrival, Direction.opposite_opposite]
  exact ⟨hclears, hposition, Direction.name_of_ofName? ha⟩

end Actor.FacesBack

namespace World

/-- Every legal path can be walked back. From its end, after half a turn, its motions are legal in
reverse with every turn the other way round; half a turn more, and the head is where it was and
faces as it did, with as many steps counted once more. -/
theorem walked_back (w : World) (a : Actor) (ms : List Motion) (ha : w.contains a = true)
    (h : w.clears a ms = true) :
    w.clears (w.arrival a ms) (wayBack ms) = true ∧
    (w.arrival (w.arrival a ms) (wayBack ms)).row = a.row ∧
    (w.arrival (w.arrival a ms) (wayBack ms)).col = a.col ∧
    (w.arrival (w.arrival a ms) (wayBack ms)).direction = a.direction ∧
    (w.arrival (w.arrival a ms) (wayBack ms)).stepCount =
      (w.arrival a ms).stepCount + ms.count .step := by
  have hend : w.contains (w.arrival a ms) = true := contains_arrival ha ms
  obtain ⟨⟨d, hd⟩, -⟩ := contains_eq_true.mp hend
  obtain ⟨hturn, hturned⟩ := clears_aboutTurn w hd
  have hfaces : (w.arrival (w.arrival a ms) aboutTurn).FacesBack (w.arrival a ms) := by
    rw [hturned]
    exact ⟨rfl, d, hd, Direction.ofName?_name _⟩
  obtain ⟨hback, hthere⟩ := hfaces.retrace ha h
  obtain ⟨hlast, hposition, hdirection⟩ := hthere.turned w
  have hclears : w.clears (w.arrival a ms) (wayBack ms) = true := by
    rw [wayBack, List.append_assoc, clears_append, hturn, clears_append, hback, hlast]
    rfl
  have harrival : w.arrival (w.arrival a ms) (wayBack ms) =
      w.arrival (w.arrival (w.arrival (w.arrival a ms) aboutTurn) (backwards ms)) aboutTurn := by
    rw [wayBack, List.append_assoc, arrival_append hturn, arrival_append hback]
  have hcount := stepCount_arrival (wayBack ms) hclears
  rw [count_wayBack] at hcount
  rw [← harrival] at hposition hdirection
  exact ⟨hclears, congrArg Prod.fst hposition, congrArg Prod.snd hposition, hdirection, hcount⟩

/-- Around the pond to its far shore. -/
theorem walked_back_garden :
    garden.contains ⟨0, 1, "right", [], [], 0⟩ = true ∧
    garden.clears ⟨0, 1, "right", [], [], 0⟩
      [.step, .step, .turn "right", .step, .step, .turn "right", .step] = true ∧
    (garden.arrival ⟨0, 1, "right", [], [], 0⟩
      [.step, .step, .turn "right", .step, .step, .turn "right", .step]).position = (2, 2) ∧
    garden.clears (garden.arrival ⟨0, 1, "right", [], [], 0⟩
        [.step, .step, .turn "right", .step, .step, .turn "right", .step])
      [.turn "right", .turn "right", .step, .turn "left", .step, .step, .turn "left", .step, .step,
        .turn "right", .turn "right"] = true := by
  have ha : garden.contains ⟨0, 1, "right", [], [], 0⟩ = true := by decide
  have h : garden.clears ⟨0, 1, "right", [], [], 0⟩
      [.step, .step, .turn "right", .step, .step, .turn "right", .step] = true := by decide
  exact ⟨ha, h, by decide, (walked_back garden _ _ ha h).1⟩

end World

end BlockGrid
