import BlockGrid.Proofs.Grid.Seeds
import BlockGrid.Proofs.Run.Uninterrupted
import BlockGrid.Proofs.Tree.Reading

/-!
# BlockGrid.Proofs.Run.Ingestion

What can go wrong with a command tree, and what a start makes of it.

* `Program.ofTree_eq` — the program of a tree, by recursion over its nodes; `notSequence_iff` and
  `badNumeral_iff`, when there is none.
* `ofTree_cases`      — a tree is no sequence, or has a program, or stops the reading at a node
  whose number only looks like one. A node that cannot be interpreted stops nothing: it is kept.
* `doubleMinus_escapes` — such a number, and a start that ends in it.
-/

namespace BlockGrid

open BlockGrid.Tree

/-- The nodes of a tree; null has none. -/
def Tree.nodes? (t : Tree) : Option (List Tree) := if t.isNull then some [] else t.items?

theorem Program.ofTree_eq (t : Tree) :
    Program.ofTree t =
      match t.nodes? with
      | none => .error (.notSequence t.kindName)
      | some nodes => readAll nodes := by
  unfold Program.ofTree nodes?
  by_cases hnull : t.isNull = true
  · simp only [hnull, if_true]
    rw [readAll_nil]
  · simp only [hnull, Bool.false_eq_true, if_false]
    cases t.items? with
    | none => rfl
    | some nodes =>
      show Reading.run ⟨nodes, []⟩ [] = readAll nodes
      rw [Reading.run_eq]
      cases readAll nodes with
      | error e => rfl
      | ok p =>
        show Reading.run ⟨[], p.reverse ++ []⟩ [] = .ok p
        rw [Reading.run, List.append_nil, List.reverse_reverse]

namespace Program

variable {t : Tree}

theorem ofTree_of_nodes {nodes : List Tree} (h : t.nodes? = some nodes) :
    ofTree t = readAll nodes := by
  rw [ofTree_eq, h]

theorem ofTree_of_none (h : t.nodes? = none) : ofTree t = .error (.notSequence t.kindName) := by
  rw [ofTree_eq, h]

theorem notSequence_iff : (∃ kind, ofTree t = .error (.notSequence kind)) ↔ t.nodes? = none := by
  refine ⟨?_, fun h => ⟨_, ofTree_of_none h⟩⟩
  rintro ⟨kind, h⟩
  cases hn : t.nodes? with
  | none => rfl
  | some nodes =>
    rw [ofTree_of_nodes hn] at h
    rcases readAll_cases nodes with ⟨p, hp, -⟩ | ⟨s, text, -, -, he⟩
    · cases hp.symm.trans h
    · cases he.symm.trans h

/-- A numeral that is none stops the reading of a program wherever it is reached. -/
theorem badNumeral_iff :
    (∃ text, ofTree t = .error (.badNumeral text)) ↔
      ∃ nodes s text, t.nodes? = some nodes ∧ Reached nodes s ∧ Stumbles s text := by
  cases hn : t.nodes? with
  | none =>
    rw [ofTree_of_none hn]
    exact iff_of_false nofun nofun
  | some nodes =>
    rw [ofTree_of_nodes hn]
    rcases readAll_cases nodes with ⟨p, hp, -⟩ | ⟨s, text, hs, hst, he⟩
    · rw [hp]
      refine iff_of_false nofun ?_
      rintro ⟨_, s, text, ⟨⟩, hs, hst⟩
      exact not_stumbles_of_readAll hp hs hst
    · exact iff_of_true ⟨text, he⟩ ⟨nodes, s, text, rfl, hs, hst⟩

end Program

namespace Interpreter

/-- A start refuses with a verdict, or begins a run, unless the reading of its program or of its
state stops. -/
theorem start_outcomes (i : Interpreter) (t : Tree) (w : World) (initial : Initial) :
    (∃ r, i.start t w initial = .ok (i.refuse r)) ∨
    (∃ p a, Program.ofTree t = .ok p ∧ i.start t w initial = .ok (i.accept p w a)) ∨
    (∃ text, i.isRunning = false ∧ Program.ofTree t = .error (.badNumeral text) ∧
      i.start t w initial = .error (.program (.badNumeral text))) ∨
    ∃ p e, i.isRunning = false ∧ Program.ofTree t = .ok p ∧ initial.isBounded = false ∧
      i.initialState w initial = .error e ∧ i.start t w initial = .error (.state e) := by
  unfold start
  cases hrun : i.isRunning with
  | true => exact .inl ⟨.busy, rfl⟩
  | false =>
    cases ht : Program.ofTree t with
    | error e =>
      cases e with
      | notSequence kind => exact .inl ⟨.malformed kind, rfl⟩
      | badNumeral text => exact .inr (.inr (.inl ⟨text, rfl, rfl, rfl⟩))
    | ok p =>
      rw [if_neg Bool.false_ne_true]
      dsimp only
      by_cases hp : p.isEmpty = true
      · rw [if_pos hp]
        exact .inl ⟨.empty, rfl⟩
      · rw [if_neg hp]
        cases hs : i.initialState w initial with
        | ok a => exact .inr (.inl ⟨p, a, rfl, rfl⟩)
        | error e =>
          cases he : e.isCaught with
          | true => exact .inl ⟨.invalid e, if_pos he⟩
          | false =>
            have hunbounded : initial.isBounded = false := isBounded_of_uncaught hs he
            exact .inr (.inr (.inr ⟨p, e, rfl, rfl, hunbounded, rfl, if_neg (by simp [he])⟩))

/-- Reading a tree. What is no sequence is refused by kind. A sequence has a program, in which each
node that cannot be interpreted is kept as it is, unless the reading comes to a node whose number
looks like one and is none; there it stops. A start ends in a verdict or in a run accordingly, if
there is no infinite number in the state that it brings. -/
theorem ofTree_cases (t : Tree) :
    (t.nodes? = none → Program.ofTree t = .error (.notSequence t.kindName)) ∧
    (∀ nodes, t.nodes? = some nodes →
      ((∀ s text, Reached nodes s → ¬ Stumbles s text) →
        ∃ p, Program.ofTree t = .ok p ∧ List.Forall₂ Reads nodes p) ∧
      ((∃ s text, Reached nodes s ∧ Stumbles s text) →
        ∃ s text, Reached nodes s ∧ Stumbles s text ∧
          Program.ofTree t = .error (.badNumeral text))) ∧
    ∀ (i : Interpreter) (w : World) (initial : Initial),
      (∃ r, i.start t w initial = .ok (i.refuse r) ∧
        (i.refuse r).2.2 = .reported false none) ∨
      (∃ p a, Program.ofTree t = .ok p ∧ i.start t w initial = .ok (i.accept p w a)) ∨
      (∃ text, i.isRunning = false ∧ Program.ofTree t = .error (.badNumeral text) ∧
        i.start t w initial = .error (.program (.badNumeral text))) ∨
      ∃ p e, i.isRunning = false ∧ Program.ofTree t = .ok p ∧ initial.isBounded = false ∧
        i.initialState w initial = .error e ∧ i.start t w initial = .error (.state e) := by
  have hread := Program.ofTree_eq t
  refine ⟨?_, ?_, ?_⟩
  · intro hnone
    rw [hread, hnone]
  · intro nodes hnodes
    rw [hnodes] at hread
    constructor
    · intro hno
      rcases readAll_cases nodes with ⟨p, hp, hreads⟩ | ⟨s, text, hs, hst, -⟩
      · exact ⟨p, hread.trans hp, hreads⟩
      · exact absurd hst (hno s text hs)
    · rintro ⟨s, text, hs, hst⟩
      rcases readAll_cases nodes with ⟨p, hp, -⟩ | ⟨s, text, hs, hst, he⟩
      · exact absurd hst (not_stumbles_of_readAll hp hs)
      · exact ⟨s, text, hs, hst, hread.trans he⟩
  · intro i w initial
    rcases start_outcomes i t w initial with ⟨r, hr⟩ | haccept | hstop
    · exact .inl ⟨r, hr, rfl⟩
    · exact .inr (.inl haccept)
    · exact .inr (.inr hstop)

/-- A number where a node should be stops nothing. -/
theorem ofTree_stray :
    ∃ reason, Program.ofTree (.list [.int 7]) = .ok [.act (.unrecognized (.int 7) reason)] := by
  have hreached : ∀ s, Reached [.int 7] s → s = .int 7 := by
    intro s hs
    induction hs with
    | item h => exact List.mem_singleton.mp h
    | body _ hm _ ih => subst ih; cases hm
  obtain ⟨p, hp, hreads⟩ := ((ofTree_cases (.list [.int 7])).2.1 [.int 7] rfl).1 (by
    intro s text hs hst
    obtain rfl := hreached s hs
    cases hst)
  cases hreads with
  | cons hread hrest =>
    cases hrest
    cases hread with
    | command hm => cases hm
    | loop hm _ => cases hm
    | @unrecognized _ reason _ => exact ⟨reason, hp⟩

/-! ## A number that is none -/

/-- A move of two minus signs and a digit. -/
def doubleMinus : Tree := .list [.obj [("cmd", .str "move"), ("value", .str "--5")]]

theorem stumbles_doubleMinus :
    Stumbles (.obj [("cmd", .str "move"), ("value", .str "--5")]) "--5" := by
  have htrim : trimmed "--5" = ['-', '-', '5'] := by decide +kernel
  have hfive : Text.isDigit '5' = true := by decide +kernel
  have hnum : Text.Numeric (trimmed "--5") 2 ['5'] :=
    ⟨htrim, List.cons_ne_nil _ _, List.forall_mem_singleton.mpr hfive⟩
  have hlook : LooksLike (.str "--5") (String.ofList (trimmed "--5")) :=
    .text ⟨2, ['5'], hnum, .inl (Nat.le_refl 2)⟩
  rw [htrim] at hlook
  exact .move keyword_move hlook

/-- The sequence has no program, and the start has no verdict: the error goes to the caller. -/
theorem doubleMinus_escapes :
    Program.ofTree doubleMinus = .error (.badNumeral "--5") ∧
    (¬ ∃ p, Program.ofTree doubleMinus = .ok p) ∧
    idle.start doubleMinus corridor .unset = .error (.program (.badNumeral "--5")) ∧
    (ProgramError.badNumeral "--5").message =
      "invalid literal for int() with base 10: '--5'" := by
  have hread : Program.ofTree doubleMinus = .error (.badNumeral "--5") :=
    (Program.ofTree_eq doubleMinus).trans
      (readAll_of_error (read_of_error (readNode_of_stumbles stumbles_doubleMinus)) [])
  refine ⟨hread, ?_, ?_, by decide +kernel⟩
  · rintro ⟨p, hp⟩
    cases hread.symm.trans hp
  · unfold start
    rw [hread]
    rfl

end Interpreter

end BlockGrid
