import BlockGrid.Command.Idle

/-!
# BlockGrid.Proofs.Command.Naming

Programs whose loops have names.

* `Named.forgetAll`     — the program without the names of its loops.
* `Named.Holds`         — a loop stands somewhere in a program, at any depth.
* `Named.Unambiguous`   — loops of one name are the same loop.
* `Program.numbered`    — the loops numbered in the order of the text, by recursion. The numbers are
  unambiguous, and `Numbering.build_eq` says that whatever is put together with a stack is put
  together from these.
-/

namespace BlockGrid

variable {ρ : Type}

section Fold

variable {γ : Type} (act : Action ρ → γ) (loop : Nat → Int → List γ → γ)

mutual

def Named.fold : Named ρ → γ
  | .act a => act a
  | .loop name count body => loop name count (Named.foldAll body)

def Named.foldAll : List (Named ρ) → List γ
  | [] => []
  | m :: ms => m.fold :: Named.foldAll ms

end

end Fold

namespace Named

def forget (m : Named ρ) : Command ρ := m.fold .act fun _ => .loop

/-- The program without the names of its loops. -/
def forgetAll (q : List (Named ρ)) : Program ρ := foldAll .act (fun _ => .loop) q

mutual

theorem fold_self (m : Named ρ) : m.fold .act .loop = m := by
  cases m with
  | act a => rfl
  | loop name count body =>
    have hbody := foldAll_self body
    rw [fold, hbody]

theorem foldAll_self (q : List (Named ρ)) : foldAll .act .loop q = q := by
  cases q with
  | nil => rfl
  | cons m q =>
    have hm := fold_self m
    have hq := foldAll_self q
    rw [foldAll, hm, hq]

end

/-- The loop stands among the commands, or in the body of one that does. -/
inductive Holds : List (Named ρ) → Nat → Int → List (Named ρ) → Prop where
  | here {q : List (Named ρ)} {name : Nat} {count : Int} {body : List (Named ρ)} :
      .loop name count body ∈ q → Holds q name count body
  | inside {q : List (Named ρ)} {outer : Nat} {times : Int} {around : List (Named ρ)} {name : Nat}
      {count : Int} {body : List (Named ρ)} :
      .loop outer times around ∈ q → Holds around name count body → Holds q name count body

section Holding

variable {q r body around : List (Named ρ)} {m : Named ρ} {a : Action ρ} {name outer : Nat}
  {count times : Int}

theorem not_holds_nil : ¬ Holds ([] : List (Named ρ)) name count body := by
  intro h
  cases h with
  | here hmem => cases hmem
  | inside hmem _ => cases hmem

theorem Holds.mono (hsub : q ⊆ r) (h : Holds q name count body) : Holds r name count body := by
  cases h with
  | here hmem => exact .here (hsub hmem)
  | inside hmem hin => exact .inside (hsub hmem) hin

theorem holds_reverse : Holds q.reverse name count body ↔ Holds q name count body :=
  ⟨.mono fun _ hm => List.mem_reverse.mp hm, .mono fun _ hm => List.mem_reverse.mpr hm⟩

theorem holds_cons : Holds (m :: q) name count body ↔
    Holds [m] name count body ∨ Holds q name count body := by
  constructor
  · intro h
    cases h with
    | here hmem =>
      exact (List.mem_cons.mp hmem).imp (fun he => .here (List.mem_singleton.mpr he)) .here
    | inside hmem hin =>
      exact (List.mem_cons.mp hmem).imp (fun he => .inside (List.mem_singleton.mpr he) hin)
        (.inside · hin)
  · rintro (h | h)
    · exact h.mono (List.cons_subset_cons m (List.nil_subset q))
    · exact h.mono (List.subset_cons_self m q)

theorem not_holds_act : ¬ Holds [.act a] name count body := by
  intro h
  cases h with
  | here hmem => cases List.mem_singleton.mp hmem
  | inside hmem _ => cases List.mem_singleton.mp hmem

theorem holds_loop : Holds [.loop outer times around] name count body ↔
    (name = outer ∧ count = times ∧ body = around) ∨ Holds around name count body := by
  constructor
  · intro h
    cases h with
    | here hmem =>
      cases List.mem_singleton.mp hmem
      exact .inl ⟨rfl, rfl, rfl⟩
    | inside hmem hin =>
      cases List.mem_singleton.mp hmem
      exact .inr hin
  · rintro (⟨rfl, rfl, rfl⟩ | h)
    · exact .here List.mem_cons_self
    · exact .inside List.mem_cons_self h

theorem holds_act_cons : Holds (.act a :: q) name count body ↔ Holds q name count body := by
  rw [holds_cons]
  exact or_iff_right not_holds_act

theorem holds_loop_cons : Holds (.loop outer times around :: q) name count body ↔
    (name = outer ∧ count = times ∧ body = around) ∨ Holds around name count body ∨
      Holds q name count body := by
  rw [holds_cons, holds_loop, or_assoc]

end Holding

/-- Names stand for the identity of loops. -/
def Unambiguous (q : List (Named ρ)) : Prop :=
  ∀ name count body count' body', Holds q name count body → Holds q name count' body' →
    count = count' ∧ body = body'

end Named

open BlockGrid.Named

/-! ## Loops in the order of the text -/

mutual

/-- The loops numbered from `next` on. -/
def Command.numbered (next : Nat) : Command ρ → Named ρ
  | .act a => .act a
  | .loop count body => .loop next count (Program.numbered (next + 1) body)

def Program.numbered (next : Nat) : List (Command ρ) → List (Named ρ)
  | [] => []
  | c :: cs => c.numbered next :: Program.numbered (next + (c.numbered next).loops) cs

end

mutual

theorem Command.forget_numbered (c : Command ρ) (next : Nat) :
    (c.numbered next).forget = c := by
  cases c with
  | act a => rfl
  | loop count body =>
    have hbody := Program.forgetAll_numbered body (next + 1)
    exact congrArg (Command.loop count) hbody

theorem Program.forgetAll_numbered (p : List (Command ρ)) (next : Nat) :
    forgetAll (Program.numbered next p) = p := by
  cases p with
  | nil => rfl
  | cons c p =>
    have hc := Command.forget_numbered c next
    have hp := Program.forgetAll_numbered p (next + (c.numbered next).loops)
    exact congr (congrArg List.cons hc) hp

end

mutual

theorem Command.bounds_numbered (c : Command ρ) (next : Nat) {name : Nat} {count : Int}
    {body : List (Named ρ)} (h : Holds [c.numbered next] name count body) :
    next ≤ name ∧ name < next + (c.numbered next).loops := by
  cases c with
  | act a => exact absurd h not_holds_act
  | loop times inner =>
    rw [Command.numbered] at h ⊢
    rw [loops]
    rcases holds_loop.mp h with ⟨rfl, -, -⟩ | hin
    · omega
    · have hbounds := Program.bounds_numbered inner (next + 1) hin
      omega

theorem Program.bounds_numbered (p : List (Command ρ)) (next : Nat) {name : Nat} {count : Int}
    {body : List (Named ρ)} (h : Holds (Program.numbered next p) name count body) :
    next ≤ name ∧ name < next + loopsAll (Program.numbered next p) := by
  cases p with
  | nil => exact absurd h not_holds_nil
  | cons c p =>
    rw [Program.numbered] at h ⊢
    rw [loopsAll]
    rcases holds_cons.mp h with hc | hp
    · have hbounds := Command.bounds_numbered c next hc
      omega
    · have hbounds := Program.bounds_numbered p _ hp
      omega

end

mutual

theorem Command.unambiguous_numbered (c : Command ρ) (next : Nat) :
    Unambiguous [c.numbered next] := by
  cases c with
  | act a => exact fun _ _ _ _ _ h _ => absurd h not_holds_act
  | loop times inner =>
    intro name count body count' body' h h'
    rw [Command.numbered] at h h'
    -- The number of the loop itself is below those of the loops in it.
    rcases holds_loop.mp h with ⟨rfl, rfl, rfl⟩ | hin <;>
      rcases holds_loop.mp h' with ⟨he, rfl, rfl⟩ | hin'
    · exact ⟨rfl, rfl⟩
    · exact absurd (Program.bounds_numbered inner _ hin').1 (by omega)
    · exact absurd (Program.bounds_numbered inner _ hin).1 (by omega)
    · exact Program.unambiguous_numbered inner _ _ _ _ _ _ hin hin'

theorem Program.unambiguous_numbered (p : List (Command ρ)) (next : Nat) :
    Unambiguous (Program.numbered next p) := by
  cases p with
  | nil => exact fun _ _ _ _ _ h _ => absurd h not_holds_nil
  | cons c p =>
    intro name count body count' body' h h'
    rw [Program.numbered] at h h'
    rcases holds_cons.mp h with hc | hp <;> rcases holds_cons.mp h' with hc' | hp'
    · exact Command.unambiguous_numbered c next _ _ _ _ _ hc hc'
    · exact absurd (Command.bounds_numbered c next hc).2
        (Nat.not_lt.mpr (Program.bounds_numbered p _ hp').1)
    · exact absurd (Command.bounds_numbered c next hc').2
        (Nat.not_lt.mpr (Program.bounds_numbered p _ hp).1)
    · exact Program.unambiguous_numbered p _ _ _ _ _ _ hp hp'

end

/-! ## Programs put together with a stack -/

namespace Numbering

variable {γ : Type} (act : Action ρ → γ) (loop : Nat → Int → List γ → γ)

theorem length_foldAll_numbered (p : Program ρ) (next : Nat) :
    (foldAll act loop (Program.numbered next p)).length = p.length := by
  induction p generalizing next with
  | nil => rfl
  | cons c p ih => rw [Program.numbered, foldAll, List.length_cons, ih, List.length_cons]

mutual

theorem run_enter (c : Command ρ) (next : Nat) (back : List γ) :
    (assembly act loop).run [.enter c] (next, back) =
      (next + (c.numbered next).loops, (c.numbered next).fold act loop :: back) := by
  cases c with
  | act a => rw [Worklist.run_cons]; exact Worklist.run_nil _ _
  | loop count body =>
    have hbody := run_enterAll body (next + 1) back
    have hlen := length_foldAll_numbered act loop body (next + 1)
    rw [Worklist.run_cons]
    show (assembly act loop).run ((enterAll body ++ [.leave next count body.length]) ++ [])
      (next + 1, back) = _
    rw [List.append_nil, Worklist.run_append, hbody, Worklist.run_cons]
    refine (Worklist.run_nil _ _).trans ?_
    rw [← hlen, ← List.length_reverse]
    simp only [assembly, List.take_left, List.drop_left, List.reverse_reverse, Command.numbered,
      loops, fold, Nat.add_assoc]

theorem run_enterAll (p : List (Command ρ)) (next : Nat) (back : List γ) :
    (assembly act loop).run (enterAll p) (next, back) =
      (next + loopsAll (Program.numbered next p),
        (foldAll act loop (Program.numbered next p)).reverse ++ back) := by
  cases p with
  | nil => exact Worklist.run_nil _ _
  | cons c p =>
    have hc := run_enter c next back
    have hp := run_enterAll p (next + (c.numbered next).loops)
      ((c.numbered next).fold act loop :: back)
    show (assembly act loop).run ([.enter c] ++ enterAll p) (next, back) = _
    rw [Worklist.run_append, hc, hp, Program.numbered, loopsAll, foldAll, List.reverse_cons,
      List.append_assoc, List.singleton_append, Nat.add_assoc]

end

theorem build_eq (p : Program ρ) :
    build act loop p = foldAll act loop (Program.numbered 0 p) := by
  rw [build, run_enterAll, List.append_nil, List.reverse_reverse]

end Numbering

end BlockGrid
