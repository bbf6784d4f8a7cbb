import BlockGrid.Proofs.Command.Walk
import BlockGrid.Proofs.Grid.Path
import BlockGrid.Run.Course

/-!
# BlockGrid.Proofs.Run.Course

What a run shows when nothing else is done to the interpreter.

* `Job.script` — the callbacks that a run has still to make: the states of the path before it, then
  one verdict.
* `Job.Piece`  — what one piece of a run can be while the run is in progress: every case with the
  interpreter and the signal it leaves (`piece_of_advance`).
* `course_of_live` — from any point of a run, its course makes exactly the callbacks of its script.
-/

namespace BlockGrid

namespace Event

/-- States and verdicts are called back; messages and delays are not. -/
def isCall : Event → Bool
  | .moved _ => true
  | .reported _ => true
  | _ => false

def actor? : Event → Option Actor
  | .moved a => some a
  | _ => none

def verdict? : Event → Option Bool
  | .reported b => some b
  | _ => none

end Event

/-- The callbacks among events. -/
def calls (es : List Event) : List Event := es.filter Event.isCall

def statesOf (es : List Event) : List Actor := es.filterMap Event.actor?

def verdictsOf (es : List Event) : List Bool := es.filterMap Event.verdict?

theorem calls_append (es fs : List Event) : calls (es ++ fs) = calls es ++ calls fs :=
  List.filter_append ..

theorem calls_logged (logs : List Log) : calls (logs.map .logged) = [] := by
  induction logs with
  | nil => rfl
  | cons log logs ih => exact ih

theorem statesOf_calls (es : List Event) : statesOf (calls es) = statesOf es := by
  rw [statesOf, calls, List.filterMap_filter]
  congr 1
  funext e
  cases e <;> rfl

theorem verdictsOf_calls (es : List Event) : verdictsOf (calls es) = verdictsOf es := by
  rw [verdictsOf, calls, List.filterMap_filter]
  congr 1
  funext e
  cases e <;> rfl

/-- The callbacks of a path from `a`: its states, then the verdict. -/
def World.script (w : World) (a : Actor) (ms : List Motion) : List Event :=
  (w.path a ms).map .moved ++ [.reported (w.ending a ms == .success)]

theorem World.script_of_next? {w : World} {a b : Actor} {m : Motion} (h : w.next? a m = some b)
    (ms : List Motion) : w.script a (m :: ms) = .moved b :: w.script b ms := by
  simp only [script, path_of_next? h, ending_of_next? h, List.map_cons, List.cons_append]

theorem statesOf_script (w : World) (a : Actor) (ms : List Motion) :
    statesOf (w.script a ms) = w.path a ms := by
  simp only [World.script, statesOf, List.filterMap_append, List.filterMap_map]
  simp [Function.comp_def, Event.actor?]

theorem verdictsOf_script (w : World) (a : Actor) (ms : List Motion) :
    verdictsOf (w.script a ms) = [w.ending a ms == .success] := by
  simp only [World.script, verdictsOf, List.filterMap_append, List.filterMap_map]
  simp [Function.comp_def, Event.verdict?]

namespace Job

/-- The motions that a run has still to make. -/
def motions (j : Job) : List Motion :=
  match j.point with
  | .leaving => []
  | .looking => motionsOf j.walker.left
  | .asleep m => m :: motionsOf j.walker.left

/-- After its report a run has nothing more to say. -/
def script (j : Job) : List Event :=
  match j.point with
  | .leaving => []
  | _ => j.world.script j.actor j.motions

def ending (j : Job) : Outcome := j.world.ending j.actor j.motions

/-- The program is exhausted, or the motion that is due cannot be made. -/
def isAtEnd (j : Job) : Bool :=
  match j.point with
  | .leaving => false
  | .looking => j.walker.next?.isNone
  | .asleep m => (j.world.next? j.actor m).isNone

theorem script_of_open {j : Job} (h : j.point ≠ .leaving) :
    j.script = j.world.script j.actor j.motions := by
  unfold script
  split
  · exact absurd ‹_› h
  · rfl

theorem script_of_leaving {j : Job} (h : j.point = .leaving) : j.script = [] := by
  simp only [script, h]

/-- `k` is the same run as `j`, still to come to the same end. -/
structure Continues (j k : Job) : Prop where
  run : k.run = j.run
  ending : k.ending = j.ending
  goesOn : k.point ≠ .leaving

/-- One piece of a run in progress: the interpreter and the signal after it. -/
inductive Piece (j : Job) (i : Interpreter) : Interpreter → Signal → Prop where
  | sleeps {m : Motion} {k : Job} : j.isAtEnd = false → j.Continues k → k.script = j.script →
      Piece j i i (.asleep m k)
  | yields {k : Job} : j.isAtEnd = false → j.Continues k → k.script = j.script →
      Piece j i i (.yielded k)
  | moves {b : Actor} {k : Job} : j.isAtEnd = false → j.Continues k →
      j.script = .moved b :: k.script → Piece j i (i.applied b) (.moved b k)
  | reports : j.isAtEnd = true → j.script = [.reported (j.ending == .success)] →
      Piece j i (i.concluded j.ending)
        (.reported (j.ending == .success) (some { j with point := .leaving }))

theorem motions_looking {j : Job} (h : j.point = .looking) : j.motions = motionsOf j.walker.left := by
  simp only [motions, h]

theorem motions_asleep {j : Job} {m : Motion} (h : j.point = .asleep m) :
    j.motions = m :: motionsOf j.walker.left := by
  simp only [motions, h]

/-- A run that has nothing left to do reports how its path ended. -/
theorem piece_report {j : Job} {o : Outcome} (i : Interpreter) (log : Log)
    (hp : j.point ≠ .leaving) (hend : j.isAtEnd = true)
    (hpath : j.world.path j.actor j.motions = []) (ho : o = j.ending) :
    Piece j i (j.report i o log).1 (j.report i o log).2.2 := by
  subst ho
  refine .reports hend ?_
  rw [script_of_open hp, World.script, hpath]
  rfl

theorem piece_conclude {j : Job} (i : Interpreter) (hp : j.point = .looking)
    (hn : j.walker.next? = none) : Piece j i (j.conclude i).1 (j.conclude i).2.2 := by
  have hm : j.motions = [] := by
    rw [motions_looking hp, Walker.left_of_next?_none hn]; rfl
  refine piece_report i _ (by simp [hp]) (by simp [isAtEnd, hp, hn]) (by rw [hm]; rfl) ?_
  rw [ending, hm]; rfl

theorem piece_block {j : Job} {m : Motion} (i : Interpreter) (hp : j.point = .asleep m)
    (hn : j.world.next? j.actor m = none) : Piece j i (j.block i).1 (j.block i).2.2 := by
  have hm := motions_asleep hp
  refine piece_report i _ (by simp [hp]) (by simp [isAtEnd, hp, hn]) ?_ ?_
  · rw [hm, World.path_of_blocked hn]
  · rw [ending, hm, World.ending_of_blocked hn]

theorem apply_of_blocked {j : Job} {i : Interpreter} {m : Motion}
    (h : j.world.next? j.actor m = none) : j.apply i m = j.block i := by
  unfold World.next? at h
  unfold apply
  split
  · rfl
  · rename_i r hr
    simp only [hr] at h
    cases hl : r.legal with
    | true => simp [hl] at h
    | false => rfl

theorem apply_of_next? {j : Job} {i : Interpreter} {m : Motion} {b : Actor}
    (h : j.world.next? j.actor m = some b) :
    ∃ logs, j.apply i m =
      (i.applied b, logs, .moved b { j with actor := b, point := .looking }) := by
  unfold World.next? at h
  unfold apply
  split
  · rename_i e he
    simp only [he] at h
    cases h
  · rename_i r hr
    simp only [hr] at h
    cases hl : r.legal with
    | false => simp [hl] at h
    | true =>
      simp only [hl, if_true, Option.some.injEq] at h
      subst h
      exact ⟨_, rfl⟩

theorem piece_apply {j : Job} {m : Motion} (i : Interpreter) (hp : j.point = .asleep m) :
    Piece j i (j.apply i m).1 (j.apply i m).2.2 := by
  cases hn : j.world.next? j.actor m with
  | none => rw [apply_of_blocked hn]; exact piece_block i hp hn
  | some b =>
    obtain ⟨logs, h⟩ := apply_of_next? (i := i) hn
    rw [h]
    refine .moves (by simp [isAtEnd, hp, hn]) ⟨rfl, ?_, by simp⟩ ?_
    · rw [ending, ending, motions_asleep hp, World.ending_of_next? hn, motions_looking rfl]
    · rw [script_of_open (by simp [hp]), script_of_open (by simp), motions_asleep hp,
        World.script_of_next? hn, motions_looking rfl]

/-- A job with the same motions before it in the same state comes to the same end. -/
theorem continues_of_motions {j k : Job} (hj : j.point ≠ .leaving) (hk : k.point ≠ .leaving)
    (hrun : k.run = j.run) (hw : k.world = j.world) (ha : k.actor = j.actor)
    (hm : k.motions = j.motions) : j.Continues k ∧ k.script = j.script := by
  refine ⟨⟨hrun, ?_, hk⟩, ?_⟩
  · rw [ending, ending, hw, ha, hm]
  · rw [script_of_open hk, script_of_open hj, hw, ha, hm]

theorem piece_take {j : Job} {a : Action Tree} {walker : Walker Tree} (i : Interpreter)
    (hp : j.point = .looking) (hn : j.walker.next? = some (a, walker)) :
    Piece j i (j.take i a walker).1 (j.take i a walker).2.2 := by
  have hend : j.isAtEnd = false := by simp [isAtEnd, hp, hn]
  have hj : j.point ≠ .leaving := by simp [hp]
  have hm : j.motions = motionsOf (a :: walker.left) := by
    rw [motions_looking hp, Walker.left_of_next? hn]
  cases a with
  | move d =>
    obtain ⟨hc, hs⟩ := continues_of_motions (k := { j with walker, point := .asleep .step })
      hj (by simp) rfl rfl rfl (by rw [hm, motions_asleep rfl]; rfl)
    exact .sleeps hend hc hs
  | turn way =>
    obtain ⟨hc, hs⟩ := continues_of_motions (k := { j with walker, point := .asleep (.turn way) })
      hj (by simp) rfl rfl rfl (by rw [hm, motions_asleep rfl]; rfl)
    exact .sleeps hend hc hs
  | unrecognized raw reason =>
    obtain ⟨hc, hs⟩ := continues_of_motions (k := { j with walker, point := .looking })
      hj (by simp) rfl rfl rfl (by rw [hm, motions_looking rfl]; rfl)
    exact .yields hend hc hs

theorem piece_of_advance {j : Job} {i : Interpreter} (hl : i.isLive j.run = true)
    (hp : j.point ≠ .leaving) :
    ∃ i' logs s, j.advance i = (i', logs, s) ∧ Piece j i i' s := by
  cases h : j.point with
  | leaving => exact absurd h hp
  | asleep m =>
    have ha : j.advance i = j.apply i m := by simp only [advance, h, hl, if_true]
    exact ⟨_, _, _, ha, piece_apply i h⟩
  | looking =>
    cases hn : j.walker.next? with
    | none =>
      have ha : j.advance i = j.conclude i := by simp only [advance, h, hl, if_true, hn]
      exact ⟨_, _, _, ha, piece_conclude i h hn⟩
    | some n =>
      have ha : j.advance i = j.take i n.1 n.2 := by simp only [advance, h, hl, if_true, hn]
      exact ⟨_, _, _, ha, piece_take i h hn⟩

theorem advance_leaving {j : Job} (i : Interpreter) (hp : j.point = .leaving) :
    j.advance i = (i.release j.run, [], .ended) := by
  simp only [advance, hp]

end Job

theorem Signal.reverse_events (s : Signal) : s.events.reverse = s.events := by
  cases s <;> rfl

namespace Interpreter

/-! ## The course of a run -/

theorem courseFrom_of_none {i : Interpreter} {s : Signal} (h : s.job? = none)
    (back : List Event) : i.courseFrom s back = (i, s.events ++ back) := by
  rw [courseFrom]
  split
  · rfl
  · rename_i j hj
    rw [h] at hj; cases hj

theorem courseFrom_of_some {i : Interpreter} {s : Signal} {j : Job} (h : s.job? = some j)
    (back : List Event) :
    i.courseFrom s back = (j.advance i).1.courseFrom (j.advance i).2.2
      (((j.advance i).2.1.map .logged).reverse ++ (s.events ++ back)) := by
  rw [courseFrom]
  split
  · rename_i hj
    rw [h] at hj; cases hj
  · rename_i k hk
    rw [h] at hk; cases hk; rfl

/-- What was seen before does not change what follows. -/
theorem courseFrom_back (i : Interpreter) (s : Signal) (back : List Event) :
    i.courseFrom s back = ((i.courseFrom s []).1, (i.courseFrom s []).2 ++ back) := by
  induction hn : s.work using Nat.strongRecOn generalizing i s back with
  | ind n ih =>
    subst hn
    cases hj : s.job? with
    | none => simp only [courseFrom_of_none hj, List.append_nil]
    | some j =>
      have hlt : (j.advance i).2.2.work < s.work := by
        have := Signal.work_of_job? hj
        have := Job.work_advance j i
        omega
      rw [courseFrom_of_some hj, courseFrom_of_some hj, ih _ hlt _ _ _ rfl,
        ih _ hlt _ _ (_ ++ (s.events ++ [])) rfl]
      simp only [List.append_assoc, List.append_nil]

theorem course_of_none {i : Interpreter} {s : Signal} (h : s.job? = none) :
    i.course s = (i, s.events) := by
  simp only [course, courseFrom_of_none h, List.append_nil, Signal.reverse_events]

theorem course_of_some {i : Interpreter} {s : Signal} {j : Job} (h : s.job? = some j) :
    i.course s = (((j.advance i).1.course (j.advance i).2.2).1,
      s.events ++ ((j.advance i).2.1.map .logged ++
        ((j.advance i).1.course (j.advance i).2.2).2)) := by
  simp only [course, courseFrom_of_some h]
  rw [courseFrom_back]
  simp only [List.append_nil, List.reverse_append, List.reverse_reverse, Signal.reverse_events,
    List.append_assoc]

theorem holds_of_isLive {i : Interpreter} {n : Nat} (h : i.isLive n = true) :
    i.holds n = true := by
  unfold isLive at h
  unfold holds
  cases hc : i.current with
  | none => rw [hc] at h; cases h
  | some c =>
    rw [hc] at h
    simp only [Option.any_some, Bool.and_eq_true] at h ⊢
    exact h.1

theorem isLive_applied (i : Interpreter) (b : Actor) (n : Nat) :
    (i.applied b).isLive n = i.isLive n := by
  unfold isLive applied
  cases i.current <;> rfl

theorem release_concluded {i : Interpreter} {n : Nat} (h : i.holds n = true) (o : Outcome) :
    (i.concluded o).release n = ⟨none, i.state, i.accepted, some o⟩ := by
  have hc : (i.concluded o).holds n = true := h
  rw [release, if_pos hc]
  rfl

/-- By induction on the work that is left: every piece takes its part off the script. -/
theorem course_of_live {i : Interpreter} {s : Signal} {j : Job} (hs : s.job? = some j)
    (hl : i.isLive j.run = true) (hp : j.point ≠ .leaving) :
    calls (i.course s).2 = calls s.events ++ j.script ∧
      (i.course s).1 =
        ⟨none, (statesOf j.script).getLast?.or i.state, i.accepted, some j.ending⟩ := by
  induction hn : s.work using Nat.strongRecOn generalizing i s j with
  | ind n ih =>
    subst hn
    obtain ⟨i', logs, s', hadv, hpiece⟩ := Job.piece_of_advance hl hp
    have hle : s'.work ≤ j.work := by
      have := Job.work_advance j i
      rwa [hadv] at this
    have hlt : s'.work < s.work := by
      rw [Signal.work_of_job? hs]; omega
    rw [course_of_some hs, hadv]
    simp only [calls_append, calls_logged, List.nil_append]
    cases hpiece with
    | @sleeps m k _ hc hk =>
      have hlk : i.isLive k.run = true := by rw [hc.run]; exact hl
      obtain ⟨hcalls, hlast⟩ := ih _ hlt rfl hlk hc.goesOn rfl
      exact ⟨by rw [hcalls, hk]; rfl, by rw [hlast, hk, hc.ending]⟩
    | @yields k _ hc hk =>
      have hlk : i.isLive k.run = true := by rw [hc.run]; exact hl
      obtain ⟨hcalls, hlast⟩ := ih _ hlt rfl hlk hc.goesOn rfl
      exact ⟨by rw [hcalls, hk]; rfl, by rw [hlast, hk, hc.ending]⟩
    | @moves b k _ hc hk =>
      have hlk : (i.applied b).isLive k.run = true := by rw [hc.run, isLive_applied]; exact hl
      obtain ⟨hcalls, hlast⟩ := ih _ hlt rfl hlk hc.goesOn rfl
      refine ⟨by rw [hcalls, hk]; rfl, ?_⟩
      rw [hlast, hk, hc.ending]
      show _ = (⟨none, (b :: statesOf k.script).getLast?.or i.state, _, _⟩ : Interpreter)
      rw [List.getLast?_cons]
      cases (statesOf k.script).getLast? <;> rfl
    | reports _ hk =>
      have hleave : (Signal.reported (j.ending == .success)
          (some { j with point := .leaving })).job? = some { j with point := .leaving } := rfl
      rw [course_of_some hleave, Job.advance_leaving _ rfl, course_of_none rfl]
      refine ⟨by rw [hk]; rfl, ?_⟩
      simp only [release_concluded (holds_of_isLive hl), hk]
      rfl

end Interpreter

end BlockGrid
