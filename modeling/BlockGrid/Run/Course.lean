import BlockGrid.Run.Interpreter

/-!
# BlockGrid.Run.Course

A run from start to end with nothing else done to the interpreter in between.

* `Event`  — what can be observed of a run.
* `course` — all that happens after a signal. Every piece of a run brings its end nearer.
* `runThrough` — a start and its course.
-/

namespace BlockGrid

inductive Event where
  | logged (log : Log)
  | slept (m : Motion)
  | moved (a : Actor)
  | reported (success : Bool)
  deriving DecidableEq, Repr

def Point.work : Point → Nat
  | .leaving => 0
  | .looking => 1
  | .asleep _ => 2

def Job.work (j : Job) : Nat := 4 * j.walker.work + j.point.work

def Signal.work : Signal → Nat
  | .asleep _ j => j.work + 1
  | .yielded j => j.work + 1
  | .moved _ j => j.work + 1
  | .reported _ (some j) => j.work + 1
  | .reported _ none => 0
  | .ended => 0

namespace Job

theorem work_report {j : Job} {i : Interpreter} {o : Outcome} {log : Log}
    (h : j.point ≠ .leaving) : (j.report i o log).2.2.work ≤ j.work := by
  simp only [report, Signal.work, work, Point.work]
  cases hp : j.point with
  | leaving => exact absurd hp h
  | looking => exact Nat.le_refl _
  | asleep m => exact Nat.le_succ _

theorem work_apply {j : Job} {i : Interpreter} {m : Motion} (h : j.point = .asleep m) :
    (j.apply i m).2.2.work ≤ j.work := by
  have hl : j.point ≠ .leaving := by simp [h]
  unfold apply
  split
  · exact work_report hl
  · split
    · simp only [Signal.work, work, Point.work, h]; omega
    · exact work_report hl

theorem work_take {j : Job} {i : Interpreter} {a : Action Tree} {walker : Walker Tree}
    (h : j.point = .looking) (hw : walker.work < j.walker.work) :
    (j.take i a walker).2.2.work ≤ j.work := by
  unfold take
  cases a <;> simp only [Signal.work, work, Point.work, h] <;> omega

/-- A piece of a run leaves less to do. -/
theorem work_advance (j : Job) (i : Interpreter) : (j.advance i).2.2.work ≤ j.work := by
  unfold advance
  split
  · simp [Signal.work]
  · rename_i m hp
    split
    · exact work_apply hp
    · simp [cancel, Signal.work]
  · rename_i hp
    split
    · split
      · exact work_take hp (Walker.work_of_next? ‹_›)
      · exact work_report (by simp [hp])
    · simp [cancel, Signal.work]

end Job

namespace Signal

/-- What a signal shows. -/
def events : Signal → List Event
  | .asleep m _ => [.slept m]
  | .yielded _ => []
  | .moved a _ => [.moved a]
  | .reported success _ => [.reported success]
  | .ended => []

def job? : Signal → Option Job
  | .asleep _ j => some j
  | .yielded j => some j
  | .moved _ j => some j
  | .reported _ j => j
  | .ended => none

theorem work_of_job? {s : Signal} {j : Job} (h : s.job? = some j) : s.work = j.work + 1 := by
  cases s with
  | reported b o => cases o with
    | none => cases h
    | some k => cases h; rfl
  | ended => cases h
  | _ => cases h; rfl

end Signal

namespace Interpreter

/-- `back` holds the events so far, last first. -/
def courseFrom (i : Interpreter) (s : Signal) (back : List Event) : Interpreter × List Event :=
  match _h : s.job? with
  | none => (i, s.events ++ back)
  | some j =>
    let next := j.advance i
    courseFrom next.1 next.2.2 ((next.2.1.map Event.logged).reverse ++ (s.events ++ back))
  termination_by s.work
  decreasing_by
    have := Signal.work_of_job? ‹_›
    have := Job.work_advance j i
    omega

/-- The interpreter after a run, and the events after a signal in order. -/
def course (i : Interpreter) (s : Signal) : Interpreter × List Event :=
  let (last, back) := i.courseFrom s []
  (last, back.reverse)

def runThrough (i : Interpreter) (t : Tree) (w : World) (initial : Initial) :
    Except StartError (Interpreter × List Event) :=
  (i.start t w initial).map fun (i', logs, signal) =>
    let (last, events) := i'.course signal
    (last, logs.map Event.logged ++ events)

end Interpreter

end BlockGrid
