import BlockGrid.Proofs.Run.Admission
import BlockGrid.Proofs.Run.Course
import BlockGrid.Proofs.Tree.Node

/-!
# BlockGrid.Proofs.Run.Uninterrupted

A run that is left alone is a path over the expansion of its program.

* `Interpreter.alone` — all that a run shows on an interpreter of its own.
* `course_of_accept`  — an accepted run and its course: the callbacks of its script, and the
  interpreter at rest afterwards.
* `runThrough_eq_path` — the whole of a start, from the tree to the verdict.
-/

namespace BlockGrid

namespace Interpreter

/-- The motions of a program as the walk hands them out. -/
def walked (p : Program Tree) : List Motion := motionsOf (Walker.ofProgram p).left

theorem walked_of_isRegular {p : Program Tree} (h : Program.isRegular p = true) :
    walked p = p.motions := by
  rw [walked, Walker.left_ofProgram h]
  rfl

/-- An accepted run before its first piece. -/
def first (n : Nat) (p : Program Tree) (w : World) (a : Actor) : Job :=
  ⟨n, w, a, .ofProgram p, .looking⟩

/-- The interpreter at the beginning of an accepted run. -/
def entered (i : Interpreter) (a : Actor) : Interpreter :=
  ⟨some ⟨i.accepted + 1, false, 0⟩, some a, i.accepted + 1, i.lastOutcome⟩

theorem isLive_entered (i : Interpreter) (a : Actor) :
    (i.entered a).isLive (i.accepted + 1) = true := by
  simp [isLive, entered]

theorem script_first (n : Nat) (p : Program Tree) (w : World) (a : Actor) :
    (first n p w a).script = w.script a (walked p) := by
  rw [Job.script_of_open (by simp [first])]
  rfl

theorem accept_eq (i : Interpreter) (p : Program Tree) (w : World) (a : Actor) :
    i.accept p w a =
      (((first (i.accepted + 1) p w a).advance (i.entered a)).1,
        startLog (i.accepted + 1) p a :: ((first (i.accepted + 1) p w a).advance (i.entered a)).2.1,
        ((first (i.accepted + 1) p w a).advance (i.entered a)).2.2) := rfl

/-- All that is shown of an accepted run. -/
def acceptEvents (i : Interpreter) (p : Program Tree) (w : World) (a : Actor) : List Event :=
  (i.accept p w a).2.1.map .logged ++ ((i.accept p w a).1.course (i.accept p w a).2.2).2

/-- All that is shown of a run when nothing else is done to its interpreter. -/
def alone (p : Program Tree) (w : World) (a : Actor) : List Event := idle.acceptEvents p w a

theorem getLast?_or_some {α : Type} (xs : List α) (x : α) :
    xs.getLast?.or (some x) = some (xs.getLastD x) := by
  rw [List.getLastD_eq_getLast?]
  cases xs.getLast? <;> rfl

theorem course_of_accept (i : Interpreter) (p : Program Tree) (w : World) (a : Actor) :
    calls (i.acceptEvents p w a) = w.script a (walked p) ∧
      ((i.accept p w a).1.course (i.accept p w a).2.2).1 =
        ⟨none, some (w.arrival a (walked p)), i.accepted + 1, some (w.ending a (walked p))⟩ := by
  -- The first piece is made within the start, as if the run had just given way before it.
  obtain ⟨hcalls, hlast⟩ := course_of_live (i := i.entered a)
    (s := .yielded (first (i.accepted + 1) p w a)) rfl (isLive_entered i a) (by simp [first])
  rw [course_of_some rfl] at hcalls hlast
  rw [script_first] at hcalls hlast
  refine ⟨?_, ?_⟩
  · rw [acceptEvents, accept_eq, List.map_cons, List.cons_append]
    exact hcalls
  · rw [accept_eq]
    refine hlast.trans ?_
    rw [statesOf_script]
    show (⟨none, (w.path a (walked p)).getLast?.or (some a), _, _⟩ : Interpreter) = _
    rw [getLast?_or_some]
    rfl

theorem calls_alone (p : Program Tree) (w : World) (a : Actor) :
    calls (alone p w a) = w.script a (walked p) := (course_of_accept idle p w a).1

theorem runThrough_of_admission {i : Interpreter} {t : Tree} {w : World} {initial : Initial}
    {p : Program Tree} {a : Actor} (h : i.admission t w initial = .ok (.ok (p, a))) :
    i.runThrough t w initial =
      .ok (((i.accept p w a).1.course (i.accept p w a).2.2).1, i.acceptEvents p w a) := by
  rw [runThrough, start_eq_admission, h]
  rfl

/-- The run of a program follows its script, and leaves the interpreter at rest. -/
theorem runThrough_follows {i : Interpreter} {w : World} {t : Tree} {p : Program Tree} {a : Actor}
    (hidle : i.isRunning = false) (hread : Program.ofTree t = .ok p) (hne : p ≠ [])
    (ha : w.contains a = true) :
    ∃ events, calls events = w.script a (walked p) ∧
      i.runThrough t w (.actor a) =
        .ok (⟨none, some (w.arrival a (walked p)), i.accepted + 1,
          some (w.ending a (walked p))⟩, events) := by
  obtain ⟨hcalls, hlast⟩ := course_of_accept i p w a
  refine ⟨_, hcalls, ?_⟩
  rw [runThrough_of_admission (admission_actor hidle hread hne ha), hlast]

/-- A start that is admitted, with nothing else done to the interpreter, follows its path: the
states up to the first blocked step are called back in order, then one verdict. It makes no
difference whether the program is handed over as a tree or in canonical form. -/
theorem runThrough_eq_path (i : Interpreter) (w : World) (t : Tree) (p : Program Tree) (a : Actor)
    (hidle : i.isRunning = false) (hread : Program.ofTree t = .ok p) (hne : p ≠ [])
    (hreg : Program.isRegular p = true) (ha : w.contains a = true) :
    ∀ given ∈ [t, .tuple (p.map .command)], ∃ last events,
      i.runThrough given w (.actor a) = .ok (last, events) ∧
      calls events = (w.path a p.motions).map .moved ++
        [.reported (w.clears a p.motions && w.evaluate (w.arrival a p.motions))] ∧
      last.lastOutcome = some
        (if w.clears a p.motions then
          if w.evaluate (w.arrival a p.motions) then .success else .incomplete
        else .illegalMove) ∧
      last.state = some (w.arrival a p.motions) ∧
      last.isRunning = false := by
  intro given hgiven
  have hgiven : Program.ofTree given = .ok p := by
    rcases List.mem_cons.mp hgiven with rfl | hgiven
    · exact hread
    · rw [List.mem_singleton.mp hgiven]; exact Program.ofTree_commands p
  obtain ⟨events, hcalls, hrun⟩ := runThrough_follows hidle hgiven hne ha
  rw [walked_of_isRegular hreg] at hcalls hrun
  refine ⟨_, events, hrun, ?_, rfl, rfl, rfl⟩
  rw [hcalls, World.script, World.ending_eq_success]

/-! ## A run to the end of a corridor -/

/-- Three cells in a row with the goal at the end. -/
def corridor : World where
  challengeId := .null
  rows := 1
  cols := 3
  obstacles := []
  goal := some (0, 2)
  collectibles := []
  start := (0, 0)
  facing := .right
  obstacles_inside := rfl
  one_objective := .inr rfl
  start_open := rfl
  goal_open := rfl
  collectibles_open := rfl
  collectibles_nodup := .nil

def twoSteps : Program Tree := [.loop 2 [.act (.move 1)]]

def twoStepsTree : Tree :=
  .list [.obj [("cmd", .str "repeat"), ("times", .int 2),
    ("body", .list [.obj [("cmd", .str "move"), ("value", .int 1)]])]]

theorem ofTree_twoStepsTree : Program.ofTree twoStepsTree = .ok twoSteps := by
  have hmove : (Tree.obj [("cmd", .str "move"), ("value", .int 1)]).readNode =
      .ok (.done (.act (.move 1))) :=
    Tree.readNode_of_means (.move Tree.keyword_move (.int 1) (by decide))
  have hloop : ∀ body, (Tree.obj [("cmd", .str "repeat"), ("times", .int 2),
      ("body", .list body)]).readNode = .ok (.opened 2 body) := fun body =>
    Tree.readNode_of_means (.loop Tree.keyword_repeat (.int 2) (by decide) rfl)
  simp only [Program.ofTree, twoStepsTree, Tree.isNull, Tree.items?, Bool.false_eq_true, if_false]
  rw [Reading.run_opened (hloop _), Reading.run_done hmove, Reading.run, Reading.run]
  rfl

theorem runThrough_corridor : ∃ last events,
    idle.runThrough twoStepsTree corridor (.actor ⟨0, 0, "right", [], [], 0⟩) =
      .ok (last, events) ∧
    calls events = [.moved ⟨0, 1, "right", [], [], 1⟩, .moved ⟨0, 2, "right", [], [], 2⟩,
      .reported true] ∧
    last.lastOutcome = some .success ∧
    last.state = some ⟨0, 2, "right", [], [], 2⟩ ∧
    last.isRunning = false := by
  obtain ⟨last, events, hrun, hcalls, houtcome, hstate, hidle⟩ :=
    runThrough_eq_path idle corridor twoStepsTree twoSteps ⟨0, 0, "right", [], [], 0⟩ rfl
      ofTree_twoStepsTree (List.cons_ne_nil _ _) (by decide) (by decide) _ List.mem_cons_self
  exact ⟨last, events, hrun, hcalls.trans (by decide), houtcome.trans (by decide),
    hstate.trans (by decide), hidle⟩

end Interpreter

end BlockGrid
