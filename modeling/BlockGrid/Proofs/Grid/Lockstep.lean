import BlockGrid.Proofs.Grid.Footsteps

/-!
# BlockGrid.Proofs.Grid.Lockstep

Motion depends on the board and on the head alone.

* `Actor.pose`      — the part of a state that motion reads and moves: head, facing and unit steps.
* `World.SameBoard` — two worlds of one size with the same obstacles, whatever their objectives.
* `World.results`   — what each of a sequence of motions comes to, made one after the other from the
  state that the one before has left.
* `seen_step`       — from states of one pose a motion is seen to come to the same in both worlds.
* `objectives_never_steer` — so is every motion of a sequence.
-/

namespace BlockGrid

structure Pose where
  row : Int
  col : Int
  direction : String
  stepCount : Int
  deriving DecidableEq, Repr

def Actor.pose (a : Actor) : Pose := ⟨a.row, a.col, a.direction, a.stepCount⟩

theorem Actor.pose_eq_iff {a b : Actor} : a.pose = b.pose ↔
    a.position = b.position ∧ a.direction = b.direction ∧ a.stepCount = b.stepCount := by
  simp only [pose, position, Pose.mk.injEq, Prod.mk.injEq, and_assoc]

namespace World

/-- What is seen of a motion but for trail and collectibles: whether it was legal, and the pose
afterwards. -/
def seen (r : Except MotionError StepResult) : Except MotionError (Bool × Pose) :=
  r.map fun r => (r.legal, r.actor.pose)

/-- A motion that fails leaves the state as it is. -/
def onward (a : Actor) : Except MotionError StepResult → Actor
  | .ok r => r.actor
  | .error _ => a

def results (w : World) : Actor → List Motion → List (Except MotionError StepResult)
  | _, [] => []
  | a, m :: ms => w.step a m :: w.results (onward a (w.step a m)) ms

structure SameBoard (w v : World) : Prop where
  rows : w.rows = v.rows
  cols : w.cols = v.cols
  obstacles : ∀ c, c ∈ w.obstacles ↔ c ∈ v.obstacles

variable {w v : World} {a b : Actor}

theorem SameBoard.isOpen (h : SameBoard w v) (c : Cell) : w.isOpen c = v.isOpen c := by
  have hobstacles : w.obstacles.contains c = v.obstacles.contains c := by
    simp [h.obstacles c]
  rw [World.isOpen, World.isOpen, Cell.isOpen, Cell.isOpen, h.rows, h.cols, hobstacles]

/-- Whether a world grows a trail or not, and whether something is gathered or not. -/
theorem pose_enter (w v : World) (hp : a.pose = b.pose) (c : Cell) :
    (w.enter a c).actor.pose = (v.enter b c).actor.pose := by
  obtain ⟨-, hdirection, hcount⟩ := Actor.pose_eq_iff.mp hp
  refine Actor.pose_eq_iff.mpr ⟨?_, ?_, ?_⟩
  · rw [position_enter, position_enter]
  · rw [direction_enter, direction_enter, hdirection]
  · rw [stepCount_enter, stepCount_enter, hcount]

theorem seen_advance (h : SameBoard w v) (hp : a.pose = b.pose) (d : Direction) :
    seen (.ok (w.advance a d)) = seen (.ok (v.advance b d)) := by
  obtain ⟨hposition, -, -⟩ := Actor.pose_eq_iff.mp hp
  rw [advance, advance, hposition, h.isOpen]
  cases v.isOpen (d.ahead b.position) with
  | true => simp only [seen, Except.map, if_true, enter_legal, pose_enter w v hp]
  | false => simp only [seen, Except.map, Bool.false_eq_true, if_false, hp]

theorem seen_step (h : SameBoard w v) (hp : a.pose = b.pose) (m : Motion) :
    seen (w.step a m) = seen (v.step b m) := by
  obtain ⟨hposition, hdirection, hcount⟩ := Actor.pose_eq_iff.mp hp
  cases m with
  | step =>
    rw [step, step, hdirection]
    cases Direction.ofName? b.direction with
    | none => rfl
    | some d => exact seen_advance h hp d
  | turn way =>
    have hturned : ∀ name, ({ a with direction := name } : Actor).pose =
        ({ b with direction := name } : Actor).pose :=
      fun name => Actor.pose_eq_iff.mpr ⟨hposition, rfl, hcount⟩
    rw [step, step, hdirection]
    cases turnName b.direction way with
    | error e => rfl
    | ok name => simp only [seen, Except.map, hturned]

/-- Going on after a motion, states of one pose are of one pose again. -/
theorem pose_onward {r s : Except MotionError StepResult} (hp : a.pose = b.pose)
    (h : seen r = seen s) : (onward a r).pose = (onward b s).pose := by
  cases r with
  | error e =>
    cases s with
    | error e' => exact hp
    | ok s => cases h
  | ok r =>
    cases s with
    | error e => cases h
    | ok s =>
      simp only [seen, Except.map, Except.ok.injEq, Prod.mk.injEq] at h
      exact h.2

theorem next?_eq (w : World) (a : Actor) (m : Motion) :
    (w.next? a m).map Actor.pose = match seen (w.step a m) with
      | .ok (legal, pose) => if legal then some pose else none
      | .error _ => none := by
  unfold next?
  cases w.step a m with
  | error e => rfl
  | ok r => cases hl : r.legal <;> simp [seen, Except.map, hl]

theorem poses_path (h : SameBoard w v) (hp : a.pose = b.pose) (ms : List Motion) :
    (w.path a ms).map Actor.pose = (v.path b ms).map Actor.pose ∧
      w.clears a ms = v.clears b ms := by
  induction ms generalizing a b with
  | nil => exact ⟨rfl, rfl⟩
  | cons m ms ih =>
    have hnext : (w.next? a m).map Actor.pose = (v.next? b m).map Actor.pose := by
      rw [next?_eq, next?_eq, seen_step h hp]
    cases hw : w.next? a m with
    | none =>
      rw [hw, Option.map_none, eq_comm, Option.map_eq_none_iff] at hnext
      simp [path, clears, hw, hnext]
    | some a' =>
      rw [hw, Option.map_some, eq_comm, Option.map_eq_some_iff] at hnext
      obtain ⟨b', hv, hp'⟩ := hnext
      obtain ⟨hpath, hclears⟩ := ih hp'.symm
      rw [path_of_next? hw, path_of_next? hv, List.map_cons, List.map_cons, hp', hpath]
      exact ⟨rfl, by rw [clears, clears, hw, hv]; exact hclears⟩

/-- Two worlds with the same board, whatever their objectives are, and two states with the same
head, facing and number of unit steps, whatever trail they drag and whatever they have collected.
Every motion of a sequence is seen to come to the same in both, also after motions that were not
legal or failed; so a run takes the same poses and is blocked in the same place. -/
theorem objectives_never_steer (w v : World) (a b : Actor) (h : SameBoard w v)
    (hp : a.pose = b.pose) (ms : List Motion) :
    (w.results a ms).map seen = (v.results b ms).map seen ∧
    (w.path a ms).map Actor.pose = (v.path b ms).map Actor.pose ∧
    w.clears a ms = v.clears b ms := by
  refine ⟨?_, poses_path h hp ms⟩
  induction ms generalizing a b with
  | nil => rfl
  | cons m ms ih =>
    have hseen := seen_step h hp m
    rw [results, results, List.map_cons, List.map_cons, hseen, ih _ _ (pose_onward hp hseen)]

/-- A pond in a garden, with a goal behind it. -/
def garden : World where
  challengeId := .null
  rows := 3
  cols := 4
  obstacles := [(1, 1), (1, 2)]
  goal := some (2, 3)
  collectibles := []
  start := (0, 0)
  facing := .right
  obstacles_inside := rfl
  one_objective := .inr rfl
  start_open := rfl
  goal_open := rfl
  collectibles_open := rfl
  collectibles_nodup := List.nodup_nil

/-- The same garden with fruit to be gathered. -/
def orchard : World where
  challengeId := .null
  rows := 3
  cols := 4
  obstacles := [(1, 1), (1, 2)]
  goal := none
  collectibles := [(0, 1), (2, 2)]
  start := (2, 3)
  facing := .up
  obstacles_inside := rfl
  one_objective := .inl rfl
  start_open := rfl
  goal_open := rfl
  collectibles_open := rfl
  collectibles_nodup := by decide

/-- On the way there is a step into the pond, which both refuse. -/
theorem garden_orchard_in_step : SameBoard garden orchard ∧
    (garden.results ⟨0, 0, "right", [], [(0, 1)], 0⟩
      [.step, .turn "right", .step, .turn "left", .step]).map seen =
    (orchard.results ⟨0, 0, "right", [(1, 0)], [], 0⟩
      [.step, .turn "right", .step, .turn "left", .step]).map seen ∧
    garden.clears ⟨0, 0, "right", [], [(0, 1)], 0⟩ [.step, .turn "right", .step] = false := by
  have hboard : SameBoard garden orchard := ⟨rfl, rfl, fun c => Iff.rfl⟩
  obtain ⟨hseen, -, -⟩ := objectives_never_steer garden orchard ⟨0, 0, "right", [], [(0, 1)], 0⟩
    ⟨0, 0, "right", [(1, 0)], [], 0⟩ hboard rfl
    [.step, .turn "right", .step, .turn "left", .step]
  exact ⟨hboard, hseen, by decide⟩

end World

end BlockGrid
