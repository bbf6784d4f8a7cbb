import BlockGrid.Proofs.Tree.Blocks
import Mathlib.Logic.Relation

/-!
# BlockGrid.Proofs.Run.Rewriting

Programs rewritten into others that run alike.

* `Context`       — a place in a program: between its siblings, at any depth in the bodies of loops.
* `Program.Rule`  — what may be put for what: one long move for two, copies of a body for its loop,
  one loop for two, nothing for what is not recognized.
* `Rewrites`      — a rule at a place, in either direction.
* `motions_of_rewrites` — a rewriting asks for the same motions; by way of `Context.motions_fill`,
  which needs no more than that of what is put into the place.
* `Interpreter.runThrough_of_rewrites` — so a run that is left alone shows the same.
-/

namespace BlockGrid

variable {ρ : Type}

/-! ## The motions of a program, by its parts -/

namespace Program

@[simp] theorem motions_nil : motions ([] : Program ρ) = [] := rfl

theorem motions_cons (c : Command ρ) (p : Program ρ) :
    motions (c :: p) = motionsOf c.expand ++ motions p := by
  rw [motions, expand, motionsOf_append]
  rfl

@[simp] theorem motions_append (p q : Program ρ) : motions (p ++ q) = motions p ++ motions q := by
  induction p with
  | nil => rfl
  | cons c p ih => rw [List.cons_append, motions_cons, motions_cons, ih, List.append_assoc]

theorem motions_singleton (c : Command ρ) : motions [c] = motionsOf c.expand := by
  rw [motions_cons, motions_nil, List.append_nil]

@[simp] theorem motions_loop (n : Int) (body : Program ρ) :
    motions [.loop n body] = (List.replicate n.toNat (motions body)).flatten := by
  rw [motions_singleton, Command.expand, motionsOf_rounds]
  rfl

@[simp] theorem motions_move (d : Int) :
    motions [(.act (.move d) : Command ρ)] = List.replicate d.toNat .step := by
  have hstep : Action.motion? (.move d : Action ρ) = some .step := rfl
  rw [motions_singleton, Command.expand, motionsOf, List.filterMap_replicate_of_some hstep]
  rfl

@[simp] theorem motions_unrecognized (raw : ρ) (reason : String) :
    motions [(.act (.unrecognized raw reason) : Command ρ)] = [] := rfl

theorem motions_copies (n : Nat) (p : Program ρ) :
    motions (List.replicate n p).flatten = (List.replicate n (motions p)).flatten := by
  induction n with
  | zero => rfl
  | succ n ih =>
    rw [List.replicate_succ, List.flatten_cons, motions_append, ih, List.replicate_succ,
      List.flatten_cons]

end Program

/-- Rounds of rounds. -/
theorem flatten_rounds {α : Type} (m n : Nat) (xs : List α) :
    (List.replicate m (List.replicate n xs).flatten).flatten =
      (List.replicate (m * n) xs).flatten := by
  have hmap : List.replicate m (List.replicate n xs).flatten =
      (List.replicate m (List.replicate n xs)).map List.flatten := List.map_replicate.symm
  rw [hmap, ← List.flatten_flatten, List.flatten_replicate_replicate]

/-! ## Places -/

/-- Where a part of a program stands. -/
inductive Context (ρ : Type) where
  | here (before after : Program ρ)
  | inside (before : Program ρ) (count : Int) (inner : Context ρ) (after : Program ρ)

namespace Context

def fill : Context ρ → Program ρ → Program ρ
  | .here before after, p => before ++ p ++ after
  | .inside before count inner after, p => before ++ [.loop count (inner.fill p)] ++ after

/-- What is around a place asks for the same motions if the place does. -/
theorem motions_fill {p q : Program ρ} (h : p.motions = q.motions) (C : Context ρ) :
    (C.fill p).motions = (C.fill q).motions := by
  induction C with
  | here before after => simp only [fill, Program.motions_append, h]
  | inside before count inner after ih =>
    simp only [fill, Program.motions_append, Program.motions_loop, ih]

end Context

/-! ## Rewriting -/

namespace Program

/-- The second program may stand for the first, and the first for the second. -/
inductive Rule : Program ρ → Program ρ → Prop where
  | split (a b : Int) : 0 ≤ a → 0 ≤ b →
      Rule [.act (.move (a + b))] [.act (.move a), .act (.move b)]
  | unroll (n : Int) (body : Program ρ) : 0 ≤ n →
      Rule [.loop n body] (List.replicate n.toNat body).flatten
  | merge (m n : Int) (body : Program ρ) : 0 ≤ m → 0 ≤ n →
      Rule [.loop m [.loop n body]] [.loop (m * n) body]
  | drop (raw : ρ) (reason : String) : Rule [.act (.unrecognized raw reason)] []

variable {p q : Program ρ}

theorem motions_of_rule (h : Rule p q) : p.motions = q.motions := by
  cases h with
  | split a b ha hb =>
    have hpair : ([.act (.move a), .act (.move b)] : Program ρ) =
        [.act (.move a)] ++ [.act (.move b)] := rfl
    rw [hpair, motions_append, motions_move, motions_move, motions_move, Int.toNat_add ha hb,
      List.replicate_add]
  | unroll n body hn => rw [motions_loop, motions_copies]
  | merge m n body hm hn =>
    rw [motions_loop, motions_loop, motions_loop, flatten_rounds, Int.toNat_mul hm hn]
  | drop raw reason => rw [motions_unrecognized, motions_nil]

/-- A rule applied at some place, in one direction or the other. -/
inductive Rewrites : Program ρ → Program ρ → Prop where
  | forth {p q : Program ρ} (C : Context ρ) : Rule p q → Rewrites (C.fill p) (C.fill q)
  | back {p q : Program ρ} (C : Context ρ) : Rule p q → Rewrites (C.fill q) (C.fill p)

theorem motions_of_rewrites (h : Rewrites p q) : p.motions = q.motions := by
  cases h with
  | forth C hr => exact C.motions_fill (motions_of_rule hr)
  | back C hr => exact C.motions_fill (motions_of_rule hr).symm

theorem motions_of_rewritten (h : Relation.ReflTransGen Rewrites p q) : p.motions = q.motions := by
  induction h with
  | refl => rfl
  | tail _ hstep ih => exact ih.trans (motions_of_rewrites hstep)

end Program

/-! ## Runs -/

namespace Interpreter

open Program

/-- A program and what it is rewritten into, however often and wherever, run alike: both runs are
begun, call back the same states and the same verdict, and have the same outcome. -/
theorem runThrough_of_rewrites (p q : Program Tree) (h : Relation.ReflTransGen Rewrites p q)
    (hp : isRegular p = true) (hq : isRegular q = true) (hp0 : p ≠ []) (hq0 : q ≠ [])
    (i i' : Interpreter) (hi : i.isRunning = false) (hi' : i'.isRunning = false)
    (t t' : Tree) (ht : Program.ofTree t = .ok p) (ht' : Program.ofTree t' = .ok q)
    (w : World) (a : Actor) (ha : w.contains a = true) :
    ∃ last last' events events' o,
      i.runThrough t w (.actor a) = .ok (last, events) ∧
      i'.runThrough t' w (.actor a) = .ok (last', events') ∧
      calls events = calls events' ∧
      last.lastOutcome = some o ∧ last'.lastOutcome = some o ∧
      last.state = last'.state ∧
      last.isRunning = false ∧ last'.isRunning = false := by
  have hmotions : walked p = walked q := by
    rw [walked_of_isRegular hp, walked_of_isRegular hq, motions_of_rewritten h]
  obtain ⟨events, hcalls, hrun⟩ := runThrough_follows hi ht hp0 ha
  obtain ⟨events', hcalls', hrun'⟩ := runThrough_follows hi' ht' hq0 ha
  rw [← hmotions] at hcalls' hrun'
  exact ⟨_, _, events, events', _, hrun, hrun', hcalls.trans hcalls'.symm, rfl, rfl, rfl, rfl, rfl⟩

/-- Two steps in a loop, with something unrecognized put into the loop, and the loop unrolled. -/
def unrolled : Program Tree :=
  [.act (.unrecognized .null ""), .act (.move 1), .act (.unrecognized .null ""), .act (.move 1)]

theorem rewrites_unrolled : Relation.ReflTransGen Rewrites twoSteps unrolled := by
  have hinsert : Rewrites twoSteps [.loop 2 [.act (.unrecognized .null ""), .act (.move 1)]] :=
    .back (.inside [] 2 (.here [] [.act (.move 1)]) []) (.drop Tree.null "")
  have hunroll :
      Rewrites [.loop 2 [.act (.unrecognized .null ""), .act (.move 1)]] unrolled :=
    .forth (.here [] []) (.unroll 2 [.act (.unrecognized Tree.null ""), .act (.move 1)] (by decide))
  exact .tail (.single hinsert) hunroll

theorem runThrough_unrolled : ∃ last last' events events' o,
    idle.runThrough twoStepsTree corridor (.actor ⟨0, 0, "right", [], [], 0⟩) =
      .ok (last, events) ∧
    idle.runThrough (.tuple (unrolled.map .command)) corridor
      (.actor ⟨0, 0, "right", [], [], 0⟩) = .ok (last', events') ∧
    calls events = calls events' ∧
    last.lastOutcome = some o ∧ last'.lastOutcome = some o ∧
    last.state = last'.state ∧
    last.isRunning = false ∧ last'.isRunning = false :=
  runThrough_of_rewrites twoSteps unrolled rewrites_unrolled (by decide) (by decide)
    (List.cons_ne_nil _ _) (List.cons_ne_nil _ _) idle idle rfl rfl twoStepsTree
    (.tuple (unrolled.map .command)) ofTree_twoStepsTree (Program.ofTree_commands unrolled)
    corridor ⟨0, 0, "right", [], [], 0⟩ (by decide)

end Interpreter

end BlockGrid
