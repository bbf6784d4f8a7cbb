import BlockGrid.Proofs.Command.Effects
import BlockGrid.Proofs.Tree.Blocks
import BlockGrid.Proofs.Tree.Fields

/-!
# BlockGrid.Proofs.Run.Exported

A canonical program, and the program that its form for the editor is read as. Canonical commands are
taken as they stand, while the nodes of the editor's form are checked one by one.

* `impactsOf`         — what effects come to: each that is no skip, with the rotation it makes.
* `World.script_congr` — motions that come to the same lead the same way to the same verdict.
* `Echo`              — a list beside another: never longer, and the same just when a test says so.
* `Program.isFaithful` — the test for programs; `reread_toJsonList` says that it is right.
* `exported_replays`  — a faithful program and its exported form come to the same and run alike.
-/

namespace BlockGrid

variable {ρ : Type}

/-! ## Impacts -/

/-- A kind of effect, and what it makes of a facing. -/
abbrev Impact := Kind × (Direction → Direction)

def Action.rotation : Action ρ → Direction → Direction
  | .turn way => fun d => d.turned way
  | _ => id

def impactsOf (es : List (Kind × Action ρ)) : List Impact :=
  (es.filter fun e => e.1 ≠ .skip).map fun e => (e.1, e.2.rotation)

def Motion.impact : Motion → Impact
  | .step => (.step, id)
  | .turn way => (.turn, fun d => d.turned way)

theorem impactsOf_effects (as : List (Action ρ)) :
    impactsOf (as.map Action.effect) = (motionsOf as).map Motion.impact := by
  induction as with
  | nil => rfl
  | cons a as ih =>
    cases a with
    | move d => exact congrArg (Motion.step.impact :: ·) ih
    | turn way => exact congrArg ((Motion.turn way).impact :: ·) ih
    | unrecognized raw reason => exact ih

/-- Two turns come to the same when both are to the right or neither is. -/
theorem impact_turn_eq_iff {v way : String} :
    (Motion.turn v).impact = (Motion.turn way).impact ↔ (v = "right" ↔ way = "right") := by
  constructor
  · intro h
    -- One facing is enough to tell the two quarter turns apart.
    have hup : Direction.up.turned v = Direction.up.turned way := congrFun (Prod.mk.inj h).2 .up
    by_cases hv : v = "right" <;> by_cases hway : way = "right" <;>
      simp_all [Direction.turned, Direction.clockwise, Direction.counterclockwise]
  · intro h
    have hturned : ∀ d : Direction, d.turned v = d.turned way := fun d => by
      simp only [Direction.turned, h]
    exact congrArg (Prod.mk Kind.turn) (funext hturned)

namespace World

variable (w : World) (a : Actor) {m m' : Motion} {ms ms' : List Motion}

theorem next?_congr (h : m.impact = m'.impact) : w.next? a m = w.next? a m' := by
  cases m with
  | step =>
    cases m' with
    | step => rfl
    | turn way => cases (Prod.mk.inj h).1
  | turn v =>
    cases m' with
    | step => cases (Prod.mk.inj h).1
    | turn way =>
      have hturned : ∀ d : Direction, d.turned v = d.turned way := congrFun (Prod.mk.inj h).2
      simp only [next?, step, turnName, hturned]

theorem path_congr (h : ms.map Motion.impact = ms'.map Motion.impact) :
    w.path a ms = w.path a ms' ∧ w.clears a ms = w.clears a ms' := by
  induction ms generalizing a ms' with
  | nil =>
    rw [List.map_eq_nil_iff.mp h.symm]
    exact ⟨rfl, rfl⟩
  | cons m ms ih =>
    cases ms' with
    | nil => cases h
    | cons m' ms' =>
      obtain ⟨hm, hms⟩ := List.cons.inj h
      simp only [path, clears, next?_congr w a hm]
      cases w.next? a m' with
      | none => exact ⟨rfl, rfl⟩
      | some b =>
        obtain ⟨hpath, hclears⟩ := ih b hms
        exact ⟨congrArg (b :: ·) hpath, hclears⟩

theorem script_congr (h : ms.map Motion.impact = ms'.map Motion.impact) :
    w.arrival a ms = w.arrival a ms' ∧ w.ending a ms = w.ending a ms' ∧
      w.script a ms = w.script a ms' := by
  obtain ⟨hpath, hclears⟩ := path_congr w a h
  have harrival : w.arrival a ms = w.arrival a ms' := by rw [arrival, hpath, arrival]
  have hending : w.ending a ms = w.ending a ms' := by
    rw [ending, hclears, harrival, ending]
  exact ⟨harrival, hending, by rw [script, hpath, hending, script]⟩

end World

/-! ## The impacts of a program -/

def Command.impacts (c : Command ρ) : List Impact := (motionsOf c.mark.expand).map Motion.impact

def Program.impacts (p : Program ρ) : List Impact :=
  (motionsOf (Marked.expandAll (Program.marks p))).map Motion.impact

namespace Command

theorem impacts_move (d : Int) :
    impacts (.act (.move d) : Command ρ) = List.replicate d.toNat Motion.step.impact := by
  have hstep : Action.motion? (.move d : Action ρ) = some .step := rfl
  rw [impacts, mark, Marked.expand, motionsOf, List.filterMap_replicate_of_some hstep,
    List.map_replicate]
  rfl

theorem impacts_turn (way : String) :
    impacts (.act (.turn way) : Command ρ) = [(Motion.turn way).impact] := by
  rw [impacts, mark, Marked.expand]
  rfl

theorem impacts_unrecognized (raw : ρ) (reason : String) :
    impacts (.act (.unrecognized raw reason)) = [] := by
  rw [impacts, mark, Marked.expand]
  rfl

theorem impacts_loop (count : Int) (body : Program ρ) :
    impacts (.loop count body) =
      (List.replicate (roundsOf count) (Program.impacts body)).flatten := by
  rw [impacts, mark, Marked.expand_ofLoop, motionsOf_rounds, List.map_flatten, List.map_replicate]
  rfl

end Command

namespace Program

theorem impacts_cons (c : Command ρ) (p : Program ρ) :
    impacts (c :: p) = c.impacts ++ impacts p := by
  rw [impacts, marks, Marked.expandAll, motionsOf_append, List.map_append]
  rfl

theorem map_impact_walked (p : Program Tree) :
    (Interpreter.walked p).map Motion.impact = impacts p := by
  rw [Interpreter.walked, Walker.left_ofProgram_eq]
  rfl

/-- What is walked has the impacts of the program. -/
theorem impactsOf_walks {p : Program ρ} {es : List (Kind × Action ρ)}
    (h : Walker.Walks (.ofProgram p) es) : impactsOf es = impacts p := by
  rw [h.eq_left, impactsOf_effects, Walker.left_ofProgram_eq]
  rfl

end Program

/-! ## Lists beside one another -/

/-- The second list is no longer than the first, and the same just when `agree` says so. -/
structure Echo {α : Type} (xs ys : List α) (agree : Bool) : Prop where
  length_le : ys.length ≤ xs.length
  eq_iff : ys = xs ↔ agree = true

namespace Echo

variable {α : Type} {xs ys us vs : List α} {a b : Bool}

theorem refl (xs : List α) : Echo xs xs true := ⟨Nat.le_refl _, iff_of_true rfl rfl⟩

theorem silence (xs : List α) : Echo xs [] xs.isEmpty :=
  ⟨Nat.zero_le _, by rw [List.isEmpty_iff, eq_comm]⟩

/-- What is missing in one part cannot be made up for in the other. -/
theorem append (h : Echo xs ys a) (k : Echo us vs b) : Echo (xs ++ us) (ys ++ vs) (a && b) := by
  constructor
  · rw [List.length_append, List.length_append]
    exact Nat.add_le_add h.length_le k.length_le
  · rw [Bool.and_eq_true, ← h.eq_iff, ← k.eq_iff]
    constructor
    · intro heq
      -- Neither part is longer, so where the wholes are as long as each other the parts are too.
      have hlen := congrArg List.length heq
      rw [List.length_append, List.length_append] at hlen
      have hle := h.length_le
      have kle := k.length_le
      exact List.append_inj heq (by omega)
    · rintro ⟨rfl, rfl⟩
      rfl

theorem rounds (h : Echo xs ys a) (n : Nat) :
    Echo (List.replicate n xs).flatten (List.replicate n ys).flatten (n == 0 || a) := by
  induction n with
  | zero => exact refl []
  | succ n ih =>
    have hagree : ((n + 1 == 0) || a) = (a && (n == 0 || a)) := by cases a <;> simp
    rw [List.replicate_succ, List.replicate_succ, List.flatten_cons, List.flatten_cons, hagree]
    exact h.append ih

end Echo

/-! ## Faithful programs -/

/-- The direction that the editor's form of a turn is read with. -/
def heard (way : String) : String := if way = "" then "right" else (Tree.str way).keyword

/-- A turn that goes the same way as it stands, where everything but `right` is to the left, and as
it is read. -/
def turnsAlike (way : String) : Bool := way = "right" ∨ heard way = "left"

mutual

/-- The editor's form comes to the same as the command. A loop with a negative count is read as
nothing, so there is to be nothing in it. -/
def Command.isFaithful : Command Tree → Bool
  | .act (.move _) => true
  | .act (.turn way) => turnsAlike way
  | .act (.unrecognized _ _) => true
  | .loop count body =>
    count == 0 || if count < 0 then (Program.impacts body).isEmpty else Program.isFaithful body

def Program.isFaithful : List (Command Tree) → Bool
  | [] => true
  | c :: cs => c.isFaithful && Program.isFaithful cs

end

open BlockGrid.Tree

namespace Tree

theorem read_backward {d : Int} (hd : d < 1) :
    read (.obj [("cmd", .str "move"), ("value", .int d)]) =
      .ok (.act (.unrecognized (.obj [("cmd", .str "move"), ("value", .int d)])
        "move distance must be a positive integer")) := by
  have htag : tag [("cmd", .str "move"), ("value", .int d)] = "move" := keyword_move
  have hread := readNode_move htag
  have hfield : (distanceField [("cmd", .str "move"), ("value", .int d)]).integer? =
    .ok (some d) := rfl
  simp only [hfield, Except.map, if_pos hd] at hread
  exact read_of_done hread

/-- A move that does not go forward does nothing, and is read as nothing. -/
theorem reread_move (d : Int) :
    ∃ b, read (.obj [("cmd", .str "move"), ("value", .int d)]) = .ok (.act b) ∧
      Echo (Command.impacts (.act (.move d) : Command Tree)) (Command.impacts (.act b)) true := by
  by_cases hd : d < 1
  · refine ⟨_, read_backward hd, ?_⟩
    rw [Command.impacts_move, Command.impacts_unrecognized, Int.toNat_eq_zero.mpr (by omega)]
    exact .refl []
  · exact ⟨_, read_move (Int.not_lt.mp hd), .refl _⟩

theorem keyword_turnField_toJson (way : String) :
    (turnField [("cmd", .str "turn"), ("dir", .str way)]).keyword = heard way := by
  rw [heard]
  by_cases hway : way = ""
  · subst hway
    exact keyword_right
  · have huse : InUse [("cmd", .str "turn"), ("dir", .str way)] ["dir"] (.str way) :=
      .here rfl nofun
    have htruth : (Tree.str way).isTruthy = true := decide_eq_true hway
    rw [turnField_of_inUse huse, htruth, if_neg hway]
    rfl

theorem turnsAlike_iff {way : String} :
    turnsAlike way = true ↔ way = "right" ∨ heard way = "left" := decide_eq_true_iff

theorem heard_right : heard "right" = "right" := keyword_right

theorem impact_heard_eq_iff {way : String} (h : heard way = "left" ∨ heard way = "right") :
    (Motion.turn (heard way)).impact = (Motion.turn way).impact ↔ turnsAlike way = true := by
  rw [impact_turn_eq_iff, turnsAlike_iff]
  have hright : way = "right" → heard way = "right" := fun hway => hway ▸ heard_right
  rcases h with h | h
  · have hne : way ≠ "right" := fun hway => by
      rw [hright hway] at h
      exact absurd h (by decide)
    simp [h, hne]
  · simp [h]

theorem turnsAlike_of_unheard {way : String} (h : ¬ (heard way = "left" ∨ heard way = "right")) :
    turnsAlike way = false := by
  refine eq_false_of_ne_true fun halike => h ?_
  rcases turnsAlike_iff.mp halike with hway | hleft
  · exact .inr (hway ▸ heard_right)
  · exact .inl hleft

/-- A turn is read as a turn one way or the other, or as nothing. -/
theorem reread_turn (way : String) :
    ∃ b, read (.obj [("cmd", .str "turn"), ("dir", .str way)]) = .ok (.act b) ∧
      Echo (Command.impacts (.act (.turn way) : Command Tree)) (Command.impacts (.act b))
        (turnsAlike way) := by
  have htag : tag [("cmd", .str "turn"), ("dir", .str way)] = "turn" := keyword_turn
  have hfield := keyword_turnField_toJson way
  by_cases hheard : heard way = "left" ∨ heard way = "right"
  · have hmeans := Means.turn htag (by simpa [hfield] using hheard)
    refine ⟨_, read_of_done (readNode_of_means hmeans), ?_⟩
    rw [hfield, Command.impacts_turn, Command.impacts_turn]
    exact ⟨Nat.le_refl _, by rw [List.singleton_inj, impact_heard_eq_iff hheard]⟩
  · have hc : ¬ turnNames.contains (heard way) = true := by simpa [turnNames] using hheard
    have hread := readNode_turn htag
    simp only [readTurn, hfield, if_neg hc] at hread
    refine ⟨_, read_of_done hread, ?_⟩
    rw [Command.impacts_turn, Command.impacts_unrecognized, turnsAlike_of_unheard hheard]
    exact .silence _

/-- An action is read as an action. -/
theorem reread_act (a : Action Tree) :
    ∃ b, read (.ofJson (Command.toJson (.act a : Command Tree))) = .ok (.act b) ∧
      Echo (Command.impacts (.act a)) (Command.impacts (.act b)) (Command.isFaithful (.act a)) := by
  cases a with
  | move d => exact reread_move d
  | turn way => exact reread_turn way
  | unrecognized raw reason =>
    refine ⟨_, read_placeholder reason, ?_⟩
    rw [Command.impacts_unrecognized, Command.impacts_unrecognized]
    exact .refl []

theorem read_loop_of_neg {count : Int} (h : count < 0) (body : List Tree) :
    read (.obj [("cmd", .str "repeat"), ("times", .int count), ("body", .list body)]) =
      .ok (.act (.unrecognized
        (.obj [("cmd", .str "repeat"), ("times", .int count), ("body", .list body)])
        "repeat count must be a non-negative integer")) := by
  have htag : tag [("cmd", .str "repeat"), ("times", .int count), ("body", .list body)] =
      "repeat" := keyword_repeat
  have hnode := readNode_loop htag
  have hfield : (countField [("cmd", .str "repeat"), ("times", .int count),
      ("body", .list body)]).integer? = .ok (some count) := rfl
  simp only [hfield, Except.map, if_pos h] at hnode
  exact read_of_done hnode

/-- A loop with a negative count is read as nothing. -/
theorem reread_loop {count : Int} {body : List Tree} {p q : Program Tree}
    (hread : readAll body = .ok q)
    (hecho : Echo (Program.impacts p) (Program.impacts q) (Program.isFaithful p)) :
    ∃ c,
      read (.obj [("cmd", .str "repeat"), ("times", .int count), ("body", .list body)]) = .ok c ∧
      Echo (Command.impacts (.loop count p)) c.impacts (Command.isFaithful (.loop count p)) := by
  by_cases h0 : 0 ≤ count
  · refine ⟨_, read_loop h0 hread, ?_⟩
    have hzero : (count == 0) = (roundsOf count == 0) := by
      rw [Bool.eq_iff_iff, beq_iff_eq, beq_iff_eq, roundsOf_eq_zero_iff]
    rw [Command.impacts_loop, Command.impacts_loop, Command.isFaithful, if_neg (Int.not_lt.mpr h0),
      hzero]
    exact hecho.rounds _
  · have hneg : count < 0 := Int.not_le.mp h0
    refine ⟨_, read_loop_of_neg hneg body, ?_⟩
    -- As it stands the loop has rounds, so it does nothing just when its body does nothing.
    have hnonzero : roundsOf count ≠ 0 := fun h => by
      have := roundsOf_eq_zero_iff.mp h
      omega
    have hempty : ((List.replicate (roundsOf count) (Program.impacts p)).flatten).isEmpty =
        (Program.impacts p).isEmpty := by
      rw [Bool.eq_iff_iff, List.isEmpty_iff, List.isEmpty_iff]
      simp [hnonzero]
    have hfaithful : Command.isFaithful (.loop count p) = (Program.impacts p).isEmpty := by
      rw [Command.isFaithful, if_pos hneg, beq_eq_false_iff_ne.mpr (by omega), Bool.false_or]
    rw [Command.impacts_loop, Command.impacts_unrecognized, hfaithful, ← hempty]
    exact .silence _

end Tree

mutual

theorem Command.reread_toJson (c : Command Tree) :
    ∃ c', read (.ofJson c.toJson) = .ok c' ∧ Echo c.impacts c'.impacts c.isFaithful := by
  cases c with
  | act a =>
    obtain ⟨b, hread, hecho⟩ := reread_act a
    exact ⟨.act b, hread, hecho⟩
  | loop count body =>
    obtain ⟨q, hread, hecho⟩ := Program.reread_toJsonList body
    rw [Command.toJson]
    exact reread_loop hread hecho

/-- The editor's form of a program is always read, as a program with no more impacts, and with the
same just when the program is faithful. -/
theorem Program.reread_toJsonList (p : List (Command Tree)) :
    ∃ q, readAll (Tree.ofItems (Program.toJsonList p)) = .ok q ∧
      Echo (Program.impacts p) (Program.impacts q) (Program.isFaithful p) := by
  cases p with
  | nil => exact ⟨[], readAll_nil, .refl []⟩
  | cons c p =>
    obtain ⟨c', hc, hcecho⟩ := Command.reread_toJson c
    obtain ⟨q, hq, hqecho⟩ := Program.reread_toJsonList p
    refine ⟨c' :: q, ?_, ?_⟩
    · rw [Program.toJsonList, Tree.ofItems, readAll_of_ok hc, hq]
      rfl
    · rw [Program.impacts_cons, Program.impacts_cons, Program.isFaithful]
      exact hcecho.append hqecho

end

/-! ## Runs -/

namespace Interpreter

/-- Programs with the same impacts run alike. -/
theorem runThrough_of_impacts {p q : Program Tree} {i i' : Interpreter} {t t' : Tree} {w : World}
    {a : Actor} (himpacts : Program.impacts q = Program.impacts p) (hp : p ≠ []) (hq : q ≠ [])
    (hi : i.isRunning = false) (hi' : i'.isRunning = false) (ht : Program.ofTree t = .ok p)
    (ht' : Program.ofTree t' = .ok q) (ha : w.contains a = true) :
    ∃ last last' events events',
      i.runThrough t w (.actor a) = .ok (last, events) ∧
      i'.runThrough t' w (.actor a) = .ok (last', events') ∧
      calls events' = calls events ∧ last'.state = last.state ∧
      last'.lastOutcome = last.lastOutcome := by
  obtain ⟨events, hcalls, hrun⟩ := runThrough_follows hi ht hp ha
  obtain ⟨events', hcalls', hrun'⟩ := runThrough_follows hi' ht' hq ha
  have hsame : (walked q).map Motion.impact = (walked p).map Motion.impact := by
    rw [Program.map_impact_walked, Program.map_impact_walked, himpacts]
  obtain ⟨harrival, hending, hscript⟩ := w.script_congr a hsame
  exact ⟨_, _, events, events', hrun, hrun', hcalls'.trans (hscript.trans hcalls.symm),
    congrArg some harrival, congrArg some hending⟩

end Interpreter

open BlockGrid.Walker BlockGrid.Interpreter

namespace Program

/-- There is a node for each command, and a command for each node. -/
theorem ne_nil_of_reread {p q : Program Tree} (hp : p ≠ [])
    (h : ofTree (.ofJson (.arr (toJsonList p))) = .ok q) : q ≠ [] := by
  rintro rfl
  cases p with
  | nil => exact hp rfl
  | cons c p =>
    have hread : readAll (.ofJson c.toJson :: ofItems (toJsonList p)) = .ok [] :=
      (ofTree_of_nodes rfl).symm.trans h
    cases (readAll_ok_iff _ _).mp hread

/-- Both forms of a program are read, and if the program is faithful they have the same impacts and
run alike. With no count negative it has to be faithful for that. A move that does not go forward
does nothing, and is read as nothing. -/
theorem exported_replays (p : Program Tree) :
    ofTree (.tuple (p.map .command)) = .ok p ∧
    (∀ d < 1, (∀ es, Walks (.ofProgram [(.act (.move d) : Command Tree)]) es → es = []) ∧
      ∃ raw reason, read (.ofJson (Command.toJson (.act (.move d) : Command Tree))) =
        .ok (.act (.unrecognized raw reason))) ∧
    ∃ q, ofTree (.ofJson (.arr (toJsonList p))) = .ok q ∧
      (∀ es es', Walks (.ofProgram p) es → Walks (.ofProgram q) es' →
        (isFaithful p = true → impactsOf es' = impactsOf es) ∧
        (isRegular p = true → impactsOf es' = impactsOf es → isFaithful p = true)) ∧
      (isFaithful p = true → p ≠ [] → ∀ (i i' : Interpreter) (w : World) (a : Actor),
        i.isRunning = false → i'.isRunning = false → w.contains a = true →
        ∃ last last' events events',
          i.runThrough (.tuple (p.map .command)) w (.actor a) = .ok (last, events) ∧
          i'.runThrough (.ofJson (.arr (toJsonList p))) w (.actor a) = .ok (last', events') ∧
          calls events' = calls events ∧ last'.state = last.state ∧
          last'.lastOutcome = last.lastOutcome) := by
  obtain ⟨q, hread, hecho⟩ := reread_toJsonList p
  have hread : ofTree (.ofJson (.arr (toJsonList p))) = .ok q := (ofTree_of_nodes rfl).trans hread
  refine ⟨ofTree_commands p, fun d hd => ⟨fun es hes => ?_, ?_⟩, q, hread, ?_, ?_⟩
  · have heffects : effects [(.act (.move d) : Command Tree)] = [] := by
      rw [effects, Command.effects, Int.toNat_eq_zero.mpr (by omega)]
      rfl
    rw [(walks_ofProgram rfl).mp hes, heffects]
  · exact ⟨_, _, read_backward hd⟩
  · intro es es' hes hes'
    rw [impactsOf_walks hes, impactsOf_walks hes', hecho.eq_iff]
    exact ⟨id, fun _ => id⟩
  · intro hfaithful hp i i' w a hi hi' ha
    exact runThrough_of_impacts (hecho.eq_iff.mpr hfaithful) hp (ne_nil_of_reread hp hread) hi hi'
      (ofTree_commands p) hread ha

/-- Four turns, written in capitals, and two steps. -/
def circle : Program Tree :=
  [.loop 4 [.act (.turn " LEFT"), .act (.move 0)], .act (.move 2)]

theorem isFaithful_circle : isFaithful circle = true := by
  have hcapitals : Text.Cased "left".toList "LEFT".toList := by simp [Text.Cased]
  have hwords : Words "left" (.str " LEFT") :=
    .text hcapitals ⟨[' '], [], rfl, List.forall_mem_singleton.mpr (by decide +kernel),
      List.forall_mem_nil _⟩
  have hleft : heard " LEFT" = "left" := keyword_of_words hwords (by decide)
  have halike : turnsAlike " LEFT" = true := turnsAlike_iff.mpr (.inr hleft)
  simp [circle, isFaithful, Command.isFaithful, halike]

theorem exported_circle : isFaithful circle = true ∧ isRegular circle = true ∧
    (∃ raw reason, read (.ofJson (Command.toJson (.act (.move 0) : Command Tree))) =
      .ok (.act (.unrecognized raw reason))) ∧
    ∃ q es es', ofTree (.ofJson (.arr (toJsonList circle))) = .ok q ∧
      Walks (.ofProgram circle) es ∧ Walks (.ofProgram q) es' ∧ impactsOf es' = impactsOf es ∧
      ∃ last last' events events',
        idle.runThrough (.tuple (circle.map .command)) corridor
          (.actor ⟨0, 0, "right", [], [], 0⟩) = .ok (last, events) ∧
        idle.runThrough (.ofJson (.arr (toJsonList circle))) corridor
          (.actor ⟨0, 0, "right", [], [], 0⟩) = .ok (last', events') ∧
        calls events' = calls events ∧ last'.state = last.state ∧
        last'.lastOutcome = last.lastOutcome := by
  obtain ⟨-, hbackward, q, hread, himpacts, hruns⟩ := exported_replays circle
  have hes := walks_left (.ofProgram circle)
  have hes' := walks_left (.ofProgram q)
  have hsame := (himpacts _ _ hes hes').1 isFaithful_circle
  have hrun := hruns isFaithful_circle (List.cons_ne_nil _ _) idle idle corridor
    ⟨0, 0, "right", [], [], 0⟩ rfl rfl (by decide)
  exact ⟨(himpacts _ _ hes hes').2 (by decide) hsame, by decide, (hbackward 0 (by decide)).2,
    q, _, _, hread, hes, hes', hsame, hrun⟩

/-- A program that is not faithful is read as one that comes to something else. -/
theorem ne_of_unfaithful {p : Program Tree} (h : isFaithful p = false) :
    ∃ q es es', ofTree (.ofJson (.arr (toJsonList p))) = .ok q ∧
      Walks (.ofProgram p) es ∧ Walks (.ofProgram q) es' ∧
      impactsOf es = impacts p ∧ impactsOf es' ≠ impacts p := by
  obtain ⟨q, hread, hecho⟩ := reread_toJsonList p
  have hes := walks_left (.ofProgram p)
  have hes' := walks_left (.ofProgram q)
  refine ⟨q, _, _, (ofTree_of_nodes rfl).trans hread, hes, hes', impactsOf_walks hes, fun heq => ?_⟩
  rw [impactsOf_walks hes'] at heq
  exact Bool.false_ne_true (h.symm.trans (hecho.eq_iff.mp heq))

/-- A turn that is no turn. -/
def around : Program Tree := [.act (.turn "around")]

/-- A loop with fewer rounds than none. -/
def underrun : Program Tree := [.loop (-1) [.act (.move 1)]]

/-- As they stand the one makes a turn and the other a step, and they are not read so. -/
theorem strays_not_replayed :
    (∃ q es es', ofTree (.tuple (around.map .command)) = .ok around ∧
      ofTree (.ofJson (.arr (toJsonList around))) = .ok q ∧
      Walks (.ofProgram around) es ∧ Walks (.ofProgram q) es' ∧
      impactsOf es = [(Motion.turn "around").impact] ∧ impactsOf es' ≠ impactsOf es) ∧
    ∃ q es es', ofTree (.tuple (underrun.map .command)) = .ok underrun ∧
      ofTree (.ofJson (.arr (toJsonList underrun))) = .ok q ∧
      Walks (.ofProgram underrun) es ∧ Walks (.ofProgram q) es' ∧
      impactsOf es = [Motion.step.impact] ∧ impactsOf es' ≠ impactsOf es := by
  have haround : isFaithful around = false := by
    have hheard : heard "around" = "around" := keyword_word (by decide)
    have halike : turnsAlike "around" = false := turnsAlike_of_unheard (by rw [hheard]; decide)
    simp [around, isFaithful, Command.isFaithful, halike]
  have hunderrun : isFaithful underrun = false := by decide
  constructor
  · obtain ⟨q, es, es', hread, hes, hes', himpacts, hne⟩ := ne_of_unfaithful haround
    exact ⟨q, es, es', ofTree_commands _, hread, hes, hes', himpacts, himpacts ▸ hne⟩
  · obtain ⟨q, es, es', hread, hes, hes', himpacts, hne⟩ := ne_of_unfaithful hunderrun
    exact ⟨q, es, es', ofTree_commands _, hread, hes, hes', himpacts, himpacts ▸ hne⟩

end Program

end BlockGrid
