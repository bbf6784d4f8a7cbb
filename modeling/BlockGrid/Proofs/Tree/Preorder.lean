import BlockGrid.Proofs.Run.Ingestion

/-!
# BlockGrid.Proofs.Tree.Preorder

The reading of a whole tree, node by node. Each node is put where it stands, and the nodes are read
in the order in which they are written, each before those in its body.

* `Tree.ind`             — induction along the reading: into the bodies of loops, and along lists.
* `readAll_eq_mapM`      — nodes one after the other are a traversal.
* `Tree.InPlace`         — a node and the command in its place, through all bodies; `readAll_ok_iff`.
* `Tree.visitedAll`      — the nodes in the order in which they are read.
* `raised_readAll`       — the error of the reading is that of the first of them that has one.
* `Program.ofTree_in_place` — all of it, for the reading with a stack.
-/

namespace BlockGrid

/-- The error of a computation that failed. -/
def raised {ε α : Type} : Except ε α → Option ε
  | .error e => some e
  | .ok _ => none

@[simp] theorem raised_error {ε α : Type} (e : ε) : raised (.error e : Except ε α) = some e := rfl

@[simp] theorem raised_ok {ε α : Type} (a : α) : raised (.ok a : Except ε α) = none := rfl

@[simp] theorem raised_map {ε α β : Type} (f : α → β) (x : Except ε α) :
    raised (x.map f) = raised x := by
  cases x <;> rfl

theorem raised_eq_some_iff {ε α : Type} {x : Except ε α} {e : ε} :
    raised x = some e ↔ x = .error e := by
  cases x <;> simp [raised]

theorem raised_eq_none_iff {ε α : Type} {x : Except ε α} :
    raised x = none ↔ ∃ a, x = .ok a := by
  cases x <;> simp [raised]

namespace Tree

variable {t : Tree} {ts body : List Tree} {c : Command Tree} {count : Int} {e : ProgramError}

/-- What holds of a node once it holds of the body that it opens, and of a list once it holds of its
items, holds throughout. -/
theorem ind {P : Tree → Prop} {Q : List Tree → Prop}
    (node : ∀ t, (∀ count body, t.readNode = .ok (.opened count body) → Q body) → P t)
    (nil : Q []) (cons : ∀ t ts, P t → Q ts → Q (t :: ts)) (ts : List Tree) : Q ts := by
  induction hn : sizeAll ts using Nat.strongRecOn generalizing ts with
  | ind n ih =>
    subst hn
    cases ts with
    | nil => exact nil
    | cons t ts =>
      have hpos := t.size_pos
      refine cons t ts (node t fun count body hopen => ?_) ?_
      · have hsize := sizeAll_of_opened hopen
        exact ih (sizeAll body) (by simp only [sizeAll]; omega) body rfl
      · exact ih (sizeAll ts) (by simp only [sizeAll]; omega) ts rfl

theorem readAll_eq_mapM (ts : List Tree) : readAll ts = ts.mapM read := by
  induction ts with
  | nil => rw [readAll_nil]; rfl
  | cons t ts ih => rw [readAll, ih, List.mapM_cons]

/-! ## Each node in its place -/

/-- A node and the command that stands for it: what is read of it alone, or, where it opens a loop,
the loop over the commands that stand for its body. -/
inductive InPlace : Tree → Command Tree → Prop where
  | node {t : Tree} {c : Command Tree} : t.readNode = .ok (.done c) → InPlace t c
  | loop {t : Tree} {count : Int} {body : List Tree} {p : Program Tree} :
      t.readNode = .ok (.opened count body) → List.Forall₂ InPlace body p →
      InPlace t (.loop count p)

theorem not_inPlace_of_error (h : t.readNode = .error e) : ¬ InPlace t c := by
  intro hc
  cases hc with
  | node hr => cases h.symm.trans hr
  | loop hr _ => cases h.symm.trans hr

theorem inPlace_of_done (h : t.readNode = .ok (.done c)) (c' : Command Tree) :
    InPlace t c' ↔ c' = c := by
  constructor
  · intro hc
    cases hc with
    | node hr => cases h.symm.trans hr; rfl
    | loop hr _ => cases h.symm.trans hr
  · rintro rfl
    exact .node h

theorem inPlace_of_opened (h : t.readNode = .ok (.opened count body)) (c : Command Tree) :
    InPlace t c ↔ ∃ p, List.Forall₂ InPlace body p ∧ c = .loop count p := by
  constructor
  · intro hc
    cases hc with
    | node hr => cases h.symm.trans hr
    | loop hr hp => cases h.symm.trans hr; exact ⟨_, hp, rfl⟩
  · rintro ⟨p, hp, rfl⟩
    exact .loop h hp

/-- One node, once its body is known. -/
theorem read_ok_iff (t : Tree)
    (hbody : ∀ count body, t.readNode = .ok (.opened count body) →
      ∀ p, readAll body = .ok p ↔ List.Forall₂ InPlace body p) (c : Command Tree) :
    read t = .ok c ↔ InPlace t c := by
  cases hr : t.readNode with
  | error e =>
    rw [read_of_error hr]
    exact iff_of_false nofun (not_inPlace_of_error hr)
  | ok node =>
    cases node with
    | done c' =>
      rw [read_of_done hr, inPlace_of_done hr, Except.ok.injEq, eq_comm]
    | opened count body =>
      rw [read_of_opened hr, inPlace_of_opened hr]
      simp only [← hbody count body hr]
      cases readAll body with
      | error e => exact iff_of_false nofun fun ⟨_, hp, _⟩ => nomatch hp
      | ok p =>
        show Except.ok (Command.loop count p) = .ok c ↔ _
        simp [eq_comm]

theorem readAll_ok_iff (ts : List Tree) :
    ∀ p, readAll ts = .ok p ↔ List.Forall₂ InPlace ts p := by
  refine ind (P := fun t => ∀ c, read t = .ok c ↔ InPlace t c) read_ok_iff ?_ ?_ ts
  · intro p
    rw [readAll_nil, Except.ok.injEq, List.forall₂_nil_left_iff, eq_comm]
  · intro t ts ht hts p
    rw [List.forall₂_cons_left_iff]
    simp only [← ht, ← hts]
    cases hc : read t with
    | error e =>
      rw [readAll_of_error hc]
      exact iff_of_false nofun fun ⟨_, _, h, _⟩ => nomatch h
    | ok c =>
      rw [readAll_of_ok hc]
      cases readAll ts with
      | error e => exact iff_of_false nofun fun ⟨_, _, _, h, _⟩ => nomatch h
      | ok q =>
        show Except.ok (c :: q) = .ok p ↔ _
        simp [eq_comm]

/-! ## The order of the reading -/

mutual

/-- A node, and the nodes of the body that it opens. -/
def visited (t : Tree) : List Tree :=
  match _h : t.readNode with
  | .ok (.opened _ body) => t :: visitedAll body
  | _ => [t]
  termination_by (t.size, 0)
  decreasing_by
    have := sizeAll_of_opened ‹_›
    exact Prod.Lex.left _ _ (by omega)

def visitedAll (ts : List Tree) : List Tree :=
  match ts with
  | [] => []
  | t :: ts => visited t ++ visitedAll ts
  termination_by (sizeAll ts, 1)
  decreasing_by
    · simp only [sizeAll]
      rcases Nat.eq_zero_or_pos (sizeAll ts) with h | h
      · rw [h]; exact Prod.Lex.right _ (by omega)
      · exact Prod.Lex.left _ _ (by omega)
    · have := t.size_pos
      exact Prod.Lex.left _ _ (by simp only [sizeAll]; omega)

end

theorem visited_of_error (h : t.readNode = .error e) : visited t = [t] := by
  rw [visited]
  split <;> rename_i hr
  · cases h.symm.trans hr
  · rfl

theorem visited_of_done (h : t.readNode = .ok (.done c)) : visited t = [t] := by
  rw [visited]
  split <;> rename_i hr
  · cases h.symm.trans hr
  · rfl

theorem visited_of_opened (h : t.readNode = .ok (.opened count body)) :
    visited t = t :: visitedAll body := by
  rw [visited]
  split <;> rename_i hr
  · cases h.symm.trans hr
    rfl
  · exact absurd h (hr _ _)

theorem visitedAll_nil : visitedAll [] = [] := by
  rw [visitedAll]

theorem visitedAll_cons (t : Tree) (ts : List Tree) :
    visitedAll (t :: ts) = visited t ++ visitedAll ts := by
  rw [visitedAll]

def firstRaised (ts : List Tree) : Option ProgramError :=
  ts.findSome? fun t => raised t.readNode

/-- One node, once its body is known. -/
theorem raised_read (t : Tree)
    (hbody : ∀ count body, t.readNode = .ok (.opened count body) →
      raised (readAll body) = firstRaised (visitedAll body)) :
    raised (read t) = firstRaised (visited t) := by
  cases hr : t.readNode with
  | error e =>
    rw [read_of_error hr, visited_of_error hr]
    simp [firstRaised, hr]
  | ok node =>
    cases node with
    | done c =>
      rw [read_of_done hr, visited_of_done hr]
      simp [firstRaised, hr]
    | opened count body =>
      rw [read_of_opened hr, visited_of_opened hr, raised_map, hbody count body hr]
      simp [firstRaised, hr]

theorem raised_readAll (ts : List Tree) :
    raised (readAll ts) = firstRaised (visitedAll ts) := by
  refine ind (P := fun t => raised (read t) = firstRaised (visited t)) raised_read ?_ ?_ ts
  · rw [readAll_nil, visitedAll_nil]
    rfl
  · intro t ts ht hts
    have hsplit : firstRaised (visitedAll (t :: ts)) =
        (firstRaised (visited t)).or (firstRaised (visitedAll ts)) := by
      rw [visitedAll_cons]
      exact List.findSome?_append
    rw [hsplit, ← ht, ← hts]
    cases hc : read t with
    | error e => rw [readAll_of_error hc]; rfl
    | ok c => rw [readAll_of_ok hc, raised_map]; rfl

theorem readAll_error_iff (ts : List Tree) (e : ProgramError) :
    readAll ts = .error e ↔
      ∃ before s after, visitedAll ts = before ++ s :: after ∧
        (∀ u ∈ before, ∃ node, u.readNode = .ok node) ∧ s.readNode = .error e := by
  rw [← raised_eq_some_iff, raised_readAll, firstRaised, List.findSome?_eq_some_iff]
  simp only [raised_eq_some_iff, raised_eq_none_iff]
  constructor
  · rintro ⟨before, s, after, hvisit, hs, hbefore⟩
    exact ⟨before, s, after, hvisit, hbefore, hs⟩
  · rintro ⟨before, s, after, hvisit, hbefore, hs⟩
    exact ⟨before, s, after, hvisit, hs, hbefore⟩

/-! ## Nodes alone -/

/-- Only a loop in order is opened. -/
theorem opened_iff (t : Tree) (count : Int) (body : List Tree) :
    t.readNode = .ok (.opened count body) ↔ Means t (.opened count body) := by
  refine ⟨fun h => ?_, readNode_of_means⟩
  cases nodeRead t with
  | means hm hr =>
    cases h.symm.trans hr
    exact hm
  | kept _ hr => cases h.symm.trans hr
  | stumbles _ hr => cases h.symm.trans hr

/-- What is not recognized is kept as it was given. -/
theorem eq_of_unrecognized {raw : Tree} {reason : String} (hplain : ∀ c, t ≠ .command c)
    (h : t.readNode = .ok (.done (.act (.unrecognized raw reason)))) : raw = t := by
  cases nodeRead t with
  | means hm hr =>
    cases h.symm.trans hr
    cases hm
    exact absurd rfl (hplain _)
  | kept _ hr =>
    cases h.symm.trans hr
    rfl
  | stumbles _ hr => cases h.symm.trans hr

end Tree

open BlockGrid.Tree BlockGrid.Interpreter

/-- The reading with a stack maps each node in place: a program has a command for each node, in the
same order at every level, and where there is none the error is that of the first node, in the
order in which they are written, that has one. -/
theorem Program.ofTree_in_place (t : Tree) (nodes : List Tree) (hnodes : t.nodes? = some nodes) :
    Program.ofTree t = nodes.mapM Tree.read ∧
    (∀ s : Tree, s.read =
      match s.readNode with
      | .error e => .error e
      | .ok (.done c) => .ok c
      | .ok (.opened count body) => (body.mapM Tree.read).map (.loop count)) ∧
    (∀ p, Program.ofTree t = .ok p ↔ List.Forall₂ InPlace nodes p) ∧
    (∀ e, Program.ofTree t = .error e ↔
      ∃ before s after, visitedAll nodes = before ++ s :: after ∧
        (∀ u ∈ before, ∃ node, u.readNode = .ok node) ∧ s.readNode = .error e) ∧
    (∀ (s : Tree) count body,
      s.readNode = .ok (.opened count body) ↔ Means s (.opened count body)) ∧
    (∀ c, (Tree.command c).readNode = .ok (.done c)) ∧
    ∀ (s : Tree) raw reason, (∀ c, s ≠ .command c) →
      s.readNode = .ok (.done (.act (.unrecognized raw reason))) → raw = s := by
  have hread := ofTree_of_nodes hnodes
  refine ⟨?_, ?_, ?_, ?_, opened_iff, fun _ => rfl, fun s raw reason => eq_of_unrecognized⟩
  · rw [hread, readAll_eq_mapM]
  · intro s
    cases hr : s.readNode with
    | error e => exact read_of_error hr
    | ok node =>
      cases node with
      | done c => exact read_of_done hr
      | opened count body =>
        show s.read = (body.mapM Tree.read).map (.loop count)
        rw [← readAll_eq_mapM]
        exact read_of_opened hr
  · intro p
    rw [hread, readAll_ok_iff]
  · intro e
    rw [hread, readAll_error_iff]

/-! ## Two numbers that are none -/

/-- A loop over the double minus, and after it a sibling that is no better. -/
def nestedMinus : List Tree :=
  [.obj [("cmd", .str "repeat"), ("times", .int 2), ("do", doubleMinus)],
   .obj [("cmd", .str "move"), ("value", .str "--6")]]

theorem means_nestedMinus :
    Means (.obj [("cmd", .str "repeat"), ("times", .int 2), ("do", doubleMinus)])
      (.opened 2 [.obj [("cmd", .str "move"), ("value", .str "--5")]]) := by
  have htag : tag [("cmd", .str "repeat"), ("times", .int 2), ("do", doubleMinus)] = "repeat" :=
    keyword_repeat
  exact .loop htag (.int 2) (by decide) rfl

/-- The one in the body comes first. -/
theorem Program.ofTree_nestedMinus :
    Program.ofTree (.list nestedMinus) = .error (.badNumeral "--5") := by
  have hloop := readNode_of_means means_nestedMinus
  have hinner := readNode_of_stumbles stumbles_doubleMinus
  refine ((Program.ofTree_in_place (.list nestedMinus) nestedMinus rfl).2.2.2.1 _).mpr
    ⟨[.obj [("cmd", .str "repeat"), ("times", .int 2), ("do", doubleMinus)]],
      .obj [("cmd", .str "move"), ("value", .str "--5")],
      visitedAll [.obj [("cmd", .str "move"), ("value", .str "--6")]], ?_, ?_, hinner⟩
  · rw [nestedMinus, visitedAll_cons, visited_of_opened hloop, visitedAll_cons,
      visited_of_error hinner, visitedAll_nil]
    rfl
  · exact List.forall_mem_singleton.mpr ⟨_, hloop⟩

end BlockGrid
