import BlockGrid.Proofs.Command.Headway

/-!
# BlockGrid.Proofs.Command.Idle

The loops that the search finds are those that expand to nothing.

* `isIdle_mark_iff`   — where every move goes forward, what is marked idle is what expands to nothing,
  loops of idle loops included; `expand_loop_eq_nil_iff`.
* `Idle.found_iff_expands_to_nothing` — the search is over after two visits to each loop, and a loop
  that stands anywhere in the program is found just when its expansion is empty.
-/

namespace BlockGrid

open BlockGrid.Named

variable {ρ : Type}

/-! ## Idle loops -/

theorem Program.strides_iff {least : Int} {p : Program ρ} :
    Program.strides least p = true ↔ ∀ c ∈ p, c.strides least = true := by
  induction p with
  | nil => exact iff_of_true rfl (List.forall_mem_nil _)
  | cons c p ih => rw [Program.strides, Bool.and_eq_true, ih, List.forall_mem_cons]

theorem isIdle_mark_iff {c : Command ρ} (h : c.strides 1 = true) :
    c.mark.isIdle = true ↔ (∃ count body, c = .loop count body) ∧ c.expand = [] := by
  rw [← Command.expand_mark c (Command.isRegular_of_strides c h)]
  cases c with
  | act a => exact iff_of_false nofun fun ⟨⟨_, _, hloop⟩, _⟩ => nomatch hloop
  | loop count body =>
    constructor
    · intro hidle
      refine ⟨⟨count, body, rfl⟩, ?_⟩
      rw [Command.mark, Marked.ofLoop] at hidle ⊢
      exact if_pos hidle
    · rintro ⟨-, hempty⟩
      refine eq_true_of_ne_false fun hidle => ?_
      exact Marked.expand_ne_nil _ (Command.isBrisk_mark _ h) hidle hempty

/-- A loop expands to nothing if it has no rounds, or nothing in it but loops that expand to
nothing. -/
theorem expand_loop_eq_nil_iff {count : Int} {body : Program ρ}
    (h : (Command.loop count body).strides 1 = true) :
    (Command.loop count body).expand = [] ↔
      count = 0 ∨ ∀ c ∈ body, (∃ n b, c = .loop n b) ∧ c.expand = [] := by
  have hloop := isIdle_mark_iff h
  have hbody : ∀ c ∈ body, c.strides 1 = true := by
    rw [Command.strides, Bool.and_eq_true] at h
    exact Program.strides_iff.mp h.2
  have hall : (Program.marks body).all Marked.isIdle = true ↔
      ∀ c ∈ body, (∃ n b, c = .loop n b) ∧ c.expand = [] := by
    clear h hloop
    induction body with
    | nil => exact iff_of_true rfl (List.forall_mem_nil _)
    | cons c body ih =>
      obtain ⟨hc, hrest⟩ := List.forall_mem_cons.mp hbody
      rw [Program.marks, List.all_cons, Bool.and_eq_true, isIdle_mark_iff hc, ih hrest,
        List.forall_mem_cons]
  have hmark : (Command.loop count body).mark.isIdle =
      (count == 0 || (Program.marks body).all Marked.isIdle) := rfl
  rw [hmark, Bool.or_eq_true, beq_iff_eq, hall] at hloop
  rw [hloop, and_iff_right ⟨count, body, rfl⟩]

/-! ## The search -/

namespace Named

theorem mem_forgetAll {q : List (Named ρ)} {m : Named ρ} (h : m ∈ q) : m.forget ∈ forgetAll q := by
  induction q with
  | nil => cases h
  | cons n q ih =>
    rcases List.mem_cons.mp h with rfl | h
    · exact List.mem_cons_self
    · exact List.mem_cons_of_mem _ (ih h)

theorem Holds.strides {q body : List (Named ρ)} {name : Nat} {count least : Int}
    (h : Holds q name count body) (hq : Program.strides least (forgetAll q) = true) :
    (Command.loop count (forgetAll body)).strides least = true := by
  induction h with
  | here hmem => exact Program.strides_iff.mp hq _ (mem_forgetAll hmem)
  | inside hmem _ ih =>
    have houter := Program.strides_iff.mp hq _ (mem_forgetAll hmem)
    rw [forget, fold, Command.strides, Bool.and_eq_true] at houter
    exact ih houter.2

end Named

namespace Idle

/-- However the loops of a program are named, as long as loops of one name are the same: the search
is over after two visits to each, the loops that it has found are those that the walker passes over,
and a loop at any depth is among them just when it expands to nothing. -/
theorem found_iff_expands_to_nothing (p : Program ρ) (h : Program.strides 1 p = true) :
    (forgetAll (Program.numbered 0 p) = p ∧ Unambiguous (Program.numbered 0 p)) ∧
    ∀ q, forgetAll q = p → Unambiguous q →
      search.within (2 * loopsAll q) (visits q).reverse [] = some (find q) ∧
      markAll p = flagAll (find q) q ∧
      (∀ name ∈ find q, ∃ count body, Holds q name count body) ∧
      ∀ name count body, Holds q name count body →
        (name ∈ find q ↔ Command.expand (.loop count (forgetAll body)) = []) ∧
        (name ∈ find q ↔ count = 0 ∨
          ∀ c ∈ forgetAll body, (∃ n b, c = .loop n b) ∧ c.expand = []) := by
  refine ⟨⟨Program.forgetAll_numbered p 0, Program.unambiguous_numbered p 0⟩, ?_⟩
  rintro q rfl hq
  refine ⟨?_, ?_, fun name hname => ?_, fun name count body hheld => ?_⟩
  · refine search.within_eq [] ?_
    rw [Worklist.rounds, totalCost_reverse]
    exact Nat.le_of_eq (totalCost_visits q)
  · rw [markAll_eq, flagAll_find hq]
  · obtain ⟨count, body, hheld, -⟩ := (mem_find hq).mp hname
    exact ⟨count, body, hheld⟩
  · have hstrides := hheld.strides h
    have hempty : name ∈ find q ↔ Command.expand (.loop count (forgetAll body)) = [] := by
      rw [mem_find_of_holds hq hheld, isIdle, isIdle_mark_iff hstrides]
      exact and_iff_right ⟨_, _, rfl⟩
    exact ⟨hempty, hempty.trans (expand_loop_eq_nil_iff hstrides)⟩

/-- Nothing, five times. It stands in the program in three places. -/
def pause : Named Nat := .loop 7 5 []

def idling : List (Named Nat) :=
  [.loop 1 1000000000000 [pause, .loop 2 0 [.act (.move 1)], pause],
    .loop 3 2 [pause, .act (.turn "right")]]

theorem unambiguous_idling : Unambiguous idling := by
  have hstands : ∀ name count body, Holds idling name count body →
      (name = 7 ∧ count = 5 ∧ body = []) ∨
      (name = 1 ∧ count = 1000000000000 ∧ body = [pause, .loop 2 0 [.act (.move 1)], pause]) ∨
      (name = 2 ∧ count = 0 ∧ body = [.act (.move 1)]) ∨
      (name = 3 ∧ count = 2 ∧ body = [pause, .act (.turn "right")]) := by
    intro name count body h
    simp only [idling, pause, holds_loop_cons, holds_act_cons, not_holds_nil, or_false,
      false_or] at h ⊢
    grind
  intro name count body count' body' h h'
  have hone := hstands _ _ _ h
  have hother := hstands _ _ _ h'
  grind

/-- Three loops of nothing in a loop, and one of them in a loop that does something. -/
theorem found_idling : Program.strides 1 (forgetAll idling) = true ∧ Unambiguous idling ∧
    search.within 12 (visits idling).reverse [] = some (find idling) ∧
    1 ∈ find idling ∧ 2 ∈ find idling ∧ 7 ∈ find idling ∧ 3 ∉ find idling := by
  have hstrides : Program.strides 1 (forgetAll idling) = true := by decide
  have hpause : Holds idling 7 5 [] := .inside List.mem_cons_self (.here List.mem_cons_self)
  obtain ⟨-, hsearch⟩ := found_iff_expands_to_nothing (forgetAll idling) hstrides
  obtain ⟨hwithin, -, -, hfound⟩ := hsearch idling rfl unambiguous_idling
  refine ⟨hstrides, unambiguous_idling, hwithin, ?_, ?_, ?_, ?_⟩
  · refine (hfound 1 _ _ (.here List.mem_cons_self)).2.mpr (.inr ?_)
    intro c hc
    have hloops : c = .loop 5 [] ∨ c = .loop 0 [.act (.move 1)] ∨ c = .loop 5 [] := by
      simpa [pause, forgetAll, foldAll, fold] using hc
    rcases hloops with rfl | rfl | rfl <;> exact ⟨⟨_, _, rfl⟩, rfl⟩
  · refine (hfound 2 0 [.act (.move 1)] ?_).2.mpr (.inl rfl)
    exact .inside List.mem_cons_self (.here (List.mem_cons_of_mem _ List.mem_cons_self))
  · exact (hfound 7 5 [] hpause).1.mpr rfl
  · intro h
    have hthree : Holds idling 3 2 [pause, .act (.turn "right")] :=
      .here (List.mem_cons_of_mem _ List.mem_cons_self)
    exact List.cons_ne_nil _ _ ((hfound 3 _ _ hthree).1.mp h)

end Idle

end BlockGrid
