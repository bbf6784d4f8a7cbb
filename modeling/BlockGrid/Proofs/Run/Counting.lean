import BlockGrid.Proofs.Command.Count
import BlockGrid.Proofs.Command.Effects
import BlockGrid.Proofs.Run.Stopping
import BlockGrid.Proofs.Tree.Blocks

/-!
# BlockGrid.Proofs.Run.Counting

What the count of effects says of a walk and of a run.

* `Program.weight_eq` — the weight of a program is the number of its motions.
* `World.length_path_eq_iff` — a path has a state for each motion exactly if it is clear.
* `Timeline.countEffects_of_walk_of_run` — the count is found without expansion, and it is the
  number of effects of the walk that are not skipped, and of states of a run that nothing blocks.
-/

namespace BlockGrid

/-! ## Sound programs -/

mutual

theorem Command.strides_of_isSound {least : Int} (hle : least ≤ 1) (c : Command Tree)
    (h : c.isSound = true) : c.strides least = true := by
  cases c with
  | act a =>
    cases a with
    | move d =>
      rw [Command.isSound, decide_eq_true_eq] at h
      rw [Command.strides, decide_eq_true_eq]
      omega
    | turn way => rfl
    | unrecognized raw reason => rfl
  | loop count body =>
    rw [Command.isSound, Bool.and_eq_true] at h
    have hbody := Program.strides_of_isSound hle body h.2
    rw [Command.strides, h.1, hbody]
    rfl

theorem Program.strides_of_isSound {least : Int} (hle : least ≤ 1) (p : List (Command Tree))
    (h : Program.isSound p = true) : Program.strides least p = true := by
  cases p with
  | nil => rfl
  | cons c p =>
    rw [Program.isSound, Bool.and_eq_true] at h
    have hc := Command.strides_of_isSound hle c h.1
    have hp := Program.strides_of_isSound hle p h.2
    rw [Program.strides, hc, hp]
    rfl

end

/-! ## Motions -/

section Motions

variable {ρ : Type}

theorem length_motionsOf_replicate {a : Action ρ} {m : Motion} (n : Nat) (h : a.motion? = some m) :
    (motionsOf (List.replicate n a)).length = n := by
  induction n with
  | zero => rfl
  | succ n ih =>
    rw [List.replicate_succ, motionsOf, List.filterMap_cons_some h]
    exact congrArg (· + 1) ih

/-- What is skipped asks for no motion, and everything else asks for one. -/
theorem length_notSkipped (as : List (Action ρ)) :
    ((as.map Action.effect).filter fun e => e.1 ≠ .skip).length = (motionsOf as).length := by
  induction as with
  | nil => rfl
  | cons a as ih =>
    cases a with
    | move d => exact congrArg (· + 1) ih
    | turn way => exact congrArg (· + 1) ih
    | unrecognized raw reason => exact ih

mutual

theorem Command.weight_eq (c : Command ρ) (h : c.strides 0 = true) :
    c.weight = ((motionsOf c.expand).length : Int) := by
  cases c with
  | act a =>
    cases a with
    | move d =>
      rw [Command.strides, decide_eq_true_eq] at h
      rw [Command.expand, Action.repeats, length_motionsOf_replicate d.toNat rfl]
      exact (Int.toNat_of_nonneg h).symm
    | turn way => rfl
    | unrecognized raw reason => rfl
  | loop count body =>
    rw [Command.strides, Bool.and_eq_true, decide_eq_true_eq] at h
    have hbody := Program.weight_eq body h.2
    rw [Command.weight, Command.expand, motionsOf_rounds, hbody, List.length_flatten,
      List.map_replicate, List.sum_replicate_nat, Int.natCast_mul, Int.toNat_of_nonneg h.1,
      Int.mul_comm]

theorem Program.weight_eq (p : List (Command ρ)) (h : Program.strides 0 p = true) :
    Program.weight p = ((motionsOf (Program.expand p)).length : Int) := by
  cases p with
  | nil => rfl
  | cons c p =>
    rw [Program.strides, Bool.and_eq_true] at h
    have hc := Command.weight_eq c h.1
    have hp := Program.weight_eq p h.2
    rw [Program.weight, Program.expand, motionsOf_append, List.length_append, hc, hp,
      Int.natCast_add]

end

theorem countEffects_eq_length {p : Program ρ} (h : Program.strides 0 p = true) :
    countEffects p = (p.motions.length : Int) := by
  rw [countEffects_eq, Program.weight_eq p h]
  rfl

end Motions

/-! ## Paths -/

namespace World

theorem length_path_le (w : World) (a : Actor) (ms : List Motion) :
    (w.path a ms).length ≤ ms.length := by
  induction ms generalizing a with
  | nil => exact Nat.le_refl 0
  | cons m ms ih =>
    cases hn : w.next? a m with
    | none => rw [path_of_blocked hn]; exact Nat.zero_le _
    | some b => rw [path_of_next? hn]; exact Nat.succ_le_succ (ih b)

theorem length_path_eq_iff (w : World) (a : Actor) (ms : List Motion) :
    (w.path a ms).length = ms.length ↔ w.clears a ms = true := by
  induction ms generalizing a with
  | nil => exact iff_of_true rfl rfl
  | cons m ms ih =>
    cases hn : w.next? a m with
    | none => simp [path_of_blocked hn, clears, hn]
    | some b => rw [path_of_next? hn, clears, hn, ← ih b]; simp

end World

/-! ## Runs -/

theorem Life.statesOf_alone_of_birth {l : Life} {p : Program Tree} {w : World} {a : Actor}
    (hbirth : l.birth = (p, w, a)) (h : Program.isRegular p = true) :
    statesOf l.alone = w.path a p.motions := by
  rw [Life.alone_of_birth hbirth, ← statesOf_calls, Interpreter.calls_alone, statesOf_script,
    Interpreter.walked_of_isRegular h]

namespace Timeline

open Interpreter

/-- The count of effects of a program, of one that plain JSON is read as to begin with: it is found
within a number of moves that the size of the program bounds, it is the number of effects of the
walk that are not skipped, and no run shows more states. A run that is over unstopped shows as many
exactly if no step was illegal, and one that is not over yet comes to that. -/
theorem countEffects_of_walk_of_run (p : Program Tree)
    (hp : Program.strides 0 p = true ∨ ∃ v : Json, Program.ofTree (.ofJson v) = .ok p) :
    Count.within (2 * Program.size p + 1) ⟨p, 0, 1⟩ [] = some (countEffects p) ∧
    (∃ es, Walker.Walks (.ofProgram p) es) ∧
    (∀ es, Walker.Walks (.ofProgram p) es →
      countEffects p = ((es.filter fun e => e.1 ≠ .skip).length : Int)) ∧
    ∀ h k n w a l, AcceptedAt h k n p w a → (after h).lives n = some l →
      (((after h).states n).length : Int) ≤ countEffects p ∧
      (l.stopped = false →
        (l.job = none →
          ((((after h).states n).length : Int) = countEffects p ↔ w.clears a p.motions = true)) ∧
        (w.clears a p.motions = true → ∃ k',
          (((after (h ++ List.replicate k' (.resume n))).states n).length : Int) =
            countEffects p)) := by
  have hstrides : Program.strides 0 p = true := by
    rcases hp with h | ⟨v, hv⟩
    · exact h
    · exact Program.strides_of_isSound (by decide) p (Program.isSound_of_ofTree hv)
  have hreg := Program.isRegular_of_strides p hstrides
  have hcount := countEffects_eq_length hstrides
  refine ⟨?_, ⟨_, Walker.walks_left _⟩, fun es hes => ?_, fun h k n w a l hk hl => ?_⟩
  · exact Count.within_of_work_le (Nat.le_refl _)
  · rw [(Walker.walks_ofProgram hreg).mp hes, Program.effects_eq, length_notSkipped, hcount]
    rfl
  obtain ⟨l', hl', hbirth⟩ := hk.life
  rw [hl] at hl'
  cases hl'
  have halone := Life.statesOf_alone_of_birth hbirth hreg
  have hprefix := Valid.states_prefix (valid_after h) hl
  rw [halone] at hprefix
  rw [hcount]
  have hle := Nat.le_trans hprefix.length_le (w.length_path_le a p.motions)
  refine ⟨Int.ofNat_le.mpr hle, fun hst => ⟨fun hover => ?_, fun hclear => ?_⟩⟩
  · rw [(valid_after h).states_whole hl hover hst, halone, Int.ofNat_inj, w.length_path_eq_iff]
  · obtain ⟨k', r, hend⟩ := comes_to_end (after h) n l hl
    rw [← after_append] at hend
    refine ⟨k', ?_⟩
    have hwhole := (valid_after _).states_whole hend rfl hst
    rw [hwhole, Int.ofNat_inj]
    exact (congrArg List.length halone).trans ((w.length_path_eq_iff a p.motions).mpr hclear)

/-- Halfway through the corridor, with the second step to come. -/
theorem countEffects_twoSteps : Count.within 5 ⟨twoSteps, 0, 1⟩ [] = some 2 ∧
    ((after firstStep).states 1).length = 1 ∧
    ∃ k', ((after (firstStep ++ List.replicate k' (.resume 1))).states 1).length = 2 := by
  have hadm : idle.admission (.tuple (twoSteps.map .command)) corridor
      (.actor ⟨0, 0, "right", [], [], 0⟩) = .ok (.ok (twoSteps, ⟨0, 0, "right", [], [], 0⟩)) :=
    admission_actor rfl (Program.ofTree_commands twoSteps) (List.cons_ne_nil _ _) (by decide)
  have hk : AcceptedAt firstStep 0 1 twoSteps corridor ⟨0, 0, "right", [], [], 0⟩ :=
    ⟨_, _, rfl, hadm, rfl⟩
  have hrun : (after firstStep).Running 1 := running_iff_any.mpr (by decide +kernel)
  have hcount : countEffects twoSteps = 2 := by rw [countEffects_eq]; rfl
  obtain ⟨l, hl, -⟩ := hk.life
  obtain ⟨hwithin, -, -, hruns⟩ := countEffects_of_walk_of_run twoSteps (.inl (by decide))
  obtain ⟨-, hends⟩ := hruns firstStep 0 1 corridor _ l hk hl
  obtain ⟨k', hend⟩ := (hends (hrun.life hl).2).2 (by decide)
  rw [hcount] at hwithin hend
  exact ⟨hwithin, by decide +kernel, k', Int.ofNat_inj.mp hend⟩

end Timeline

end BlockGrid
