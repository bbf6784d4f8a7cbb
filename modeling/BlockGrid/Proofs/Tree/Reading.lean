import BlockGrid.Proofs.Run.Admission
import BlockGrid.Proofs.Tree.Node
import Mathlib.Data.List.Forall2

/-!
# BlockGrid.Proofs.Tree.Reading

Whole command trees. They are read with the open loops on a stack; the same is said here by
recursion.

* `Tree.read`, `Tree.readAll` — a node with all that is in it, and nodes one after the other.
* `Reading.run_eq`   — the reading with a stack gives what the recursion gives.
* `Tree.Reads`       — a node and its command: what it means, with the body of a loop read in place,
  or the node itself, kept as unrecognized.
* `Tree.Reached`     — the nodes that the reading comes to: those of the sequence, and those in the
  bodies of loops among them.
* `readAll_cases`    — either every node has its command, or one that is reached stops the reading.
-/

namespace BlockGrid

namespace Tree

mutual

def read (t : Tree) : Except ProgramError (Command Tree) :=
  match _h : t.readNode with
  | .error e => .error e
  | .ok (.done c) => .ok c
  | .ok (.opened count body) => (readAll body).map (.loop count)
  termination_by (t.size, 0)
  decreasing_by
    have := sizeAll_of_opened ‹_›
    exact Prod.Lex.left _ _ (by omega)

def readAll (ts : List Tree) : Except ProgramError (Program Tree) :=
  match ts with
  | [] => .ok []
  | t :: ts => do
    let c ← read t
    let cs ← readAll ts
    pure (c :: cs)
  termination_by (sizeAll ts, 1)
  decreasing_by
    · simp only [sizeAll]
      rcases Nat.eq_zero_or_pos (sizeAll ts) with h | h
      · rw [h]; exact Prod.Lex.right _ (by omega)
      · exact Prod.Lex.left _ _ (by omega)
    · have := t.size_pos
      exact Prod.Lex.left _ _ (by simp only [sizeAll]; omega)

end

variable {t s : Tree} {ts body : List Tree} {c : Command Tree} {count : Int} {e : ProgramError}

theorem read_eq (t : Tree) :
    read t =
      match t.readNode with
      | .error e => .error e
      | .ok (.done c) => .ok c
      | .ok (.opened count body) => (readAll body).map (.loop count) := by
  rw [read]
  split <;> rename_i h <;> rw [h]

theorem read_of_error (h : t.readNode = .error e) : read t = .error e := by
  rw [read_eq, h]

theorem read_of_done (h : t.readNode = .ok (.done c)) : read t = .ok c := by
  rw [read_eq, h]

theorem read_of_opened (h : t.readNode = .ok (.opened count body)) :
    read t = (readAll body).map (.loop count) := by
  rw [read_eq, h]

theorem readAll_nil : readAll [] = .ok [] := by
  rw [readAll]

theorem readAll_of_error (h : read t = .error e) (ts : List Tree) :
    readAll (t :: ts) = .error e := by
  rw [readAll, h]
  rfl

theorem readAll_of_ok (h : read t = .ok c) (ts : List Tree) :
    readAll (t :: ts) = (readAll ts).map (c :: ·) := by
  rw [readAll, h]
  cases readAll ts <;> rfl

/-- A command, and what it was read from. -/
inductive Reads : Tree → Command Tree → Prop where
  | command {t : Tree} {c : Command Tree} : Means t (.done c) → Reads t c
  | loop {t : Tree} {count : Int} {body : List Tree} {p : Program Tree} :
      Means t (.opened count body) → List.Forall₂ Reads body p → Reads t (.loop count p)
  | unrecognized {t : Tree} {reason : String} :
      (∀ node, ¬ Means t node) → Reads t (.act (.unrecognized t reason))

inductive Reached (nodes : List Tree) : Tree → Prop where
  | item {t : Tree} : t ∈ nodes → Reached nodes t
  | body {t s : Tree} {count : Int} {body : List Tree} :
      Reached nodes t → Means t (.opened count body) → s ∈ body → Reached nodes s

theorem Reached.mono {nodes nodes' : List Tree} (hsub : nodes ⊆ nodes') (h : Reached nodes s) :
    Reached nodes' s := by
  induction h with
  | item ht => exact .item (hsub ht)
  | body _ hm hs ih => exact .body ih hm hs

theorem Reached.of_body {nodes : List Tree} (ht : t ∈ nodes) (hm : Means t (.opened count body))
    (h : Reached body s) : Reached nodes s := by
  induction h with
  | item hs => exact .body (.item ht) hm hs
  | body _ hm' hs ih => exact .body ih hm' hs

/-- Either every node has its command, or the reading stops at one that is reached. -/
theorem readAll_cases (ts : List Tree) :
    (∃ p, readAll ts = .ok p ∧ List.Forall₂ Reads ts p) ∨
    ∃ s text, Reached ts s ∧ Stumbles s text ∧ readAll ts = .error (.badNumeral text) := by
  induction hn : sizeAll ts using Nat.strongRecOn generalizing ts with
  | ind n ih =>
    subst hn
    cases ts with
    | nil => exact .inl ⟨[], readAll_nil, .nil⟩
    | cons t ts =>
      have hpos := t.size_pos
      have hnode : (∃ c, read t = .ok c ∧ Reads t c) ∨
          ∃ s text, Reached (t :: ts) s ∧ Stumbles s text ∧ read t = .error (.badNumeral text) := by
        cases nodeRead t with
        | @means node hm hr =>
          cases node with
          | done c => exact .inl ⟨c, read_of_done hr, .command hm⟩
          | opened count body =>
            have hsize := sizeAll_of_opened hr
            have hbody := ih (sizeAll body) (by simp only [sizeAll]; omega) body rfl
            rw [read_of_opened hr]
            rcases hbody with ⟨p, hp, hreads⟩ | ⟨s, text, hs, hst, he⟩
            · exact .inl ⟨.loop count p, by rw [hp]; rfl, .loop hm hreads⟩
            · exact .inr ⟨s, text, hs.of_body List.mem_cons_self hm, hst, by rw [he]; rfl⟩
        | kept hno hr => exact .inl ⟨_, read_of_done hr, .unrecognized hno⟩
        | stumbles hs hr => exact .inr ⟨t, _, .item List.mem_cons_self, hs, read_of_error hr⟩
      have hrest := ih (sizeAll ts) (by simp only [sizeAll]; omega) ts rfl
      rcases hnode with ⟨c, hc, hreads⟩ | ⟨s, text, hs, hst, he⟩
      · rw [readAll_of_ok hc]
        rcases hrest with ⟨p, hp, hall⟩ | ⟨s, text, hs, hst, he⟩
        · exact .inl ⟨c :: p, by rw [hp]; rfl, .cons hreads hall⟩
        · exact .inr ⟨s, text, hs.mono (List.subset_cons_self t ts), hst, by rw [he]; rfl⟩
      · exact .inr ⟨s, text, hs, hst, readAll_of_error he ts⟩

theorem read_of_mem {p : Program Tree} (h : readAll ts = .ok p) (ht : t ∈ ts) :
    ∃ c, read t = .ok c := by
  induction ts generalizing p with
  | nil => cases ht
  | cons u ts ih =>
    cases hu : read u with
    | error e => rw [readAll_of_error hu] at h; cases h
    | ok c =>
      rw [readAll_of_ok hu] at h
      cases hts : readAll ts with
      | error e => rw [hts] at h; cases h
      | ok q =>
        rcases List.mem_cons.mp ht with rfl | ht
        · exact ⟨c, hu⟩
        · exact ih hts ht

theorem read_of_reached {p : Program Tree} (h : readAll ts = .ok p) (hs : Reached ts s) :
    ∃ c, read s = .ok c := by
  induction hs with
  | item ht => exact read_of_mem h ht
  | @body t s count body _ hm hs ih =>
    obtain ⟨c, hc⟩ := ih
    rw [read_of_opened (readNode_of_means hm)] at hc
    cases hbody : readAll body with
    | error e => rw [hbody] at hc; cases hc
    | ok q => exact read_of_mem hbody hs

/-- Where everything is read nothing stumbles. -/
theorem not_stumbles_of_readAll {p : Program Tree} {text : String} (h : readAll ts = .ok p)
    (hs : Reached ts s) : ¬ Stumbles s text := by
  intro hst
  obtain ⟨c, hc⟩ := read_of_reached h hs
  rw [read_of_error (readNode_of_stumbles hst)] at hc
  cases hc

end Tree

namespace Reading

open BlockGrid.Tree

/-- The reading with a stack. The levels around are untouched until a level is finished. -/
theorem run_eq (ts : List Tree) (back : Program Tree) (os : List Open) :
    run ⟨ts, back⟩ os =
      match readAll ts with
      | .error e => .error e
      | .ok p => run ⟨[], p.reverse ++ back⟩ os := by
  induction hn : sizeAll ts using Nat.strongRecOn generalizing ts back os with
  | ind n ih =>
    subst hn
    cases ts with
    | nil => rw [readAll_nil]; rfl
    | cons t ts =>
      have hpos := t.size_pos
      have hrest := fun back os => ih (sizeAll ts) (by simp only [sizeAll]; omega) ts back os rfl
      cases hnode : t.readNode with
      | error e => rw [run_failed hnode, readAll_of_error (read_of_error hnode)]
      | ok node =>
        cases node with
        | done c =>
          rw [run_done hnode, hrest, readAll_of_ok (read_of_done hnode)]
          cases readAll ts with
          | error e => rfl
          | ok p => simp [Except.map]
        | opened count body =>
          have hsize := sizeAll_of_opened hnode
          have hbody := ih (sizeAll body) (by simp only [sizeAll]; omega) body []
            (⟨count, ⟨ts, back⟩⟩ :: os) rfl
          have hread := read_of_opened hnode
          rw [run_opened hnode, hbody]
          cases hp : readAll body with
          | error e =>
            rw [hp] at hread
            rw [readAll_of_error hread]
          | ok p =>
            rw [hp] at hread
            rw [readAll_of_ok hread]
            show run ⟨[], p.reverse ++ []⟩ (⟨count, ⟨ts, back⟩⟩ :: os) = _
            rw [run, List.append_nil, List.reverse_reverse, hrest]
            cases readAll ts with
            | error e => rfl
            | ok q => simp [Except.map]

end Reading

end BlockGrid
