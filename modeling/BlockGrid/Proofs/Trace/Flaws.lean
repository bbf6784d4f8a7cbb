import BlockGrid.Proofs.Trace.Soundness

/-!
# BlockGrid.Proofs.Trace.Flaws

What the check of a trace says of one state with integers in it.

* `Json.whole`    — the number of an integer; `within_of_isInteger`, `isLess_of_isInteger` compare by
  it.
* `Flaw`, `LooseActor.Has` — what can be wrong with a state, and when it is. The last flaw depends on
  the steps that were taken before.
* `Flaw.text`     — the words for it.
* `check_whole`   — a state is reported for each of its flaws, once.
-/

namespace BlockGrid

/-! ## Integers -/

namespace Json

variable {v w : Json}

/-- The number that an integer or a truth value stands for. -/
def whole : Json → Int
  | .int n => n
  | .bool b => if b then 1 else 0
  | _ => 0

theorem number?_of_isInteger (h : v.isInteger = true) : v.number? = some (.ofInt v.whole) := by
  cases v with
  | int n => rfl
  | bool b => rfl
  | _ => cases h

end Json

namespace Bounds

theorem within_of_isInteger {v : Json} (h : v.isInteger = true) (side : Int) :
    within v (.int side) = .ok (decide (0 ≤ v.whole ∧ v.whole < side)) := by
  simp only [within_of_number (Json.number?_of_isInteger h), Extended.inside_ofInt]

end Bounds

theorem Snapshot.isLess_of_isInteger {v w : Json} (hv : v.isInteger = true)
    (hw : w.isInteger = true) : isLess v w = .ok (decide (v.whole < w.whole)) := by
  have hcompare : isLess v w = Bounds.compare "<" Extended.lt v w := by
    cases v with
    | int n => rfl
    | bool b => rfl
    | _ => cases hv
  rw [hcompare, Bounds.compare, Json.number?_of_isInteger hv, Json.number?_of_isInteger hw]
  simp only [Extended.lt_ofInt]

/-! ## One state -/

/-- Flaws of a state, in the order in which they are reported. -/
inductive Flaw where
  | direction
  | outside
  | repeated
  | backwards
  deriving DecidableEq, Repr

def Flaw.all : List Flaw := [.direction, .outside, .repeated, .backwards]

theorem Flaw.mem_all (f : Flaw) : f ∈ all := by cases f <;> decide

/-- No cell is there twice. -/
def LooseCell.Distinct (cells : List LooseCell) : Prop := cells.Pairwise fun c d => c.same d = false

instance (cells : List LooseCell) : Decidable (LooseCell.Distinct cells) :=
  inferInstanceAs (Decidable (cells.Pairwise fun c d => c.same d = false))

namespace LooseActor

variable {s : LooseActor} {rows cols : Option Int} {steps : Int}

/-- Integers wherever there should be, and collected cells that can be looked up by. -/
structure IsWhole (s : LooseActor) : Prop where
  row : s.row.isInteger = true
  col : s.col.isInteger = true
  stepCount : s.stepCount.isInteger = true
  collected : ∀ c ∈ s.collected, c.1.hasHash = true ∧ c.2.hasHash = true

def head (s : LooseActor) : Cell := (s.row.whole, s.col.whole)

/-- The facing is one of the four. -/
def Faces (s : LooseActor) : Prop := ∃ d : Direction, s.direction = .str d.name

theorem faces_iff : s.Faces ↔ s.facing?.isSome = true := by
  constructor
  · rintro ⟨d, hd⟩
    rw [facing?, hd]
    exact d.isKnown_name
  · intro h
    unfold facing? at h
    split at h
    · rename_i name hname
      obtain ⟨d, rfl⟩ := Direction.exists_name_of_isKnown h
      exact ⟨d, hname⟩
    · cases h

instance (s : LooseActor) : Decidable s.Faces := decidable_of_iff _ faces_iff.symm

/-- What is wrong with a state that comes after so many steps. The head is looked at only if both
sides of the grid are given. -/
def Has (s : LooseActor) (rows cols : Option Int) (steps : Int) : Flaw → Prop
  | .direction => ¬ s.Faces
  | .outside => ∃ r ∈ rows, ∃ c ∈ cols, ¬ s.head.inside r c
  | .repeated => ¬ LooseCell.Distinct s.collected
  | .backwards => s.stepCount.whole < steps

instance (s : LooseActor) (rows cols : Option Int) (steps : Int) :
    DecidablePred (s.Has rows cols steps)
  | .direction => inferInstanceAs (Decidable (¬ s.Faces))
  | .outside => inferInstanceAs (Decidable (∃ r ∈ rows, ∃ c ∈ cols, ¬ s.head.inside r c))
  | .repeated => inferInstanceAs (Decidable (¬ LooseCell.Distinct s.collected))
  | .backwards => inferInstanceAs (Decidable (s.stepCount.whole < steps))

def flaws (s : LooseActor) (rows cols : Option Int) (steps : Int) : List Flaw :=
  Flaw.all.filter (s.Has rows cols steps ·)

theorem mem_flaws {f : Flaw} : f ∈ s.flaws rows cols steps ↔ s.Has rows cols steps f := by
  rw [flaws, List.mem_filter, decide_eq_true_iff]
  exact and_iff_right f.mem_all

theorem nodup_flaws : (s.flaws rows cols steps).Nodup :=
  List.Nodup.filter _ (show Flaw.all.Nodup by decide)

end LooseActor

/-- The words for a flaw of the state that is number `i`. -/
def Flaw.text (b : Bounds) (i : Nat) (s : LooseActor) : Flaw → String
  | .direction => Snapshot.label i ++ " has unknown direction " ++ s.direction.shown
  | .outside =>
    Snapshot.label i ++ " head " ++ s.position.shown ++ " is outside " ++ b.rows.spoken ++ "x"
      ++ b.cols.spoken
  | .repeated => Snapshot.label i ++ " lists a collectible more than once"
  | .backwards => Snapshot.label i ++ " step count went backwards"

namespace LooseCell

theorem hasRepeats_eq_false_iff {cells : List LooseCell} :
    hasRepeats cells = false ↔ Distinct cells := by
  induction cells with
  | nil => exact iff_of_true rfl List.Pairwise.nil
  | cons c cells ih =>
    have hcons : Distinct (c :: cells) ↔ (∀ d ∈ cells, c.same d = false) ∧ Distinct cells :=
      List.pairwise_cons
    rw [hcons, hasRepeats, Bool.or_eq_false_iff, ih, List.any_eq_false]
    simp only [Bool.not_eq_true]

end LooseCell

namespace Snapshot

variable {i : Nat} {s : LooseActor} {steps : Json}

section OneState

variable (rows cols : Option Int) (i : Nat)

/-- The warning of a flaw, if the state has it. -/
def told (s : LooseActor) (steps : Int) (f : Flaw) : List String :=
  if s.Has rows cols steps f then [f.text (.ofSides rows cols) i s] else []

theorem texts_flaws (s : LooseActor) (steps : Int) :
    (s.flaws rows cols steps).map (Flaw.text (.ofSides rows cols) i s) =
      Flaw.all.flatMap (told rows cols i s steps) := by
  have hgeneral : ∀ fs : List Flaw,
      (fs.filter (s.Has rows cols steps ·)).map (Flaw.text (.ofSides rows cols) i s) =
        fs.flatMap (told rows cols i s steps) := by
    intro fs
    induction fs with
    | nil => rfl
    | cons f fs ih =>
      rw [List.filter_cons, List.flatMap_cons, ← ih, told]
      by_cases hf : s.Has rows cols steps f <;> simp [hf]
  exact hgeneral Flaw.all

theorem directionWarnings_eq (s : LooseActor) (steps : Int) :
    directionWarnings i s = told rows cols i s steps .direction := by
  have hhas : s.Has rows cols steps .direction ↔ ¬ s.facing?.isSome = true :=
    not_congr LooseActor.faces_iff
  rw [directionWarnings, told]
  by_cases h : s.facing?.isSome = true
  · rw [if_pos h, if_neg (mt hhas.mp (not_not_intro h))]
  · rw [if_neg h, if_pos (hhas.mpr h)]
    rfl

theorem contains_of_isWhole (h : s.IsWhole) (r c : Int) :
    (Bounds.ofSides (some r) (some c)).contains s.position = .ok (s.head.inside r c) := by
  have hcontains : (Bounds.ofSides (some r) (some c)).contains s.position = (do
      if ← Bounds.within s.row (.int r) then Bounds.within s.col (.int c) else pure false) := rfl
  rw [hcontains, Bounds.within_of_isInteger h.row, Bounds.within_of_isInteger h.col]
  by_cases hrow : 0 ≤ s.row.whole ∧ s.row.whole < r
  · simp only [hrow, and_self, decide_true]
    show Except.ok _ = _
    simp [Cell.inside, LooseActor.head, hrow]
  · simp only [hrow, decide_false]
    show Except.ok false = _
    have hout : ¬ (0 ≤ s.row.whole ∧ s.row.whole < r ∧ 0 ≤ s.col.whole ∧ s.col.whole < c) :=
      fun hin => hrow ⟨hin.1, hin.2.1⟩
    simp [Cell.inside, LooseActor.head, hout]

theorem boundsWarnings_eq (h : s.IsWhole) (steps : Int) :
    boundsWarnings i (.ofSides rows cols) s = .ok (told rows cols i s steps .outside) := by
  match rows, cols with
  | none, _ => simp [boundsWarnings, told, LooseActor.Has, Bounds.areGiven, Bounds.ofSides,
      Json.ofOption, Json.isNull]
  | some r, none => simp [boundsWarnings, told, LooseActor.Has, Bounds.areGiven, Bounds.ofSides,
      Json.ofOption, Json.isNull]
  | some r, some c =>
    have hhas : s.Has (some r) (some c) steps .outside ↔ ¬ s.head.inside r c = true := by
      simp [LooseActor.Has]
    rw [boundsWarnings, if_pos (Bounds.areGiven_ofSides r c), contains_of_isWhole h, told]
    by_cases hin : s.head.inside r c = true
    · rw [if_neg (mt hhas.mp (not_not_intro hin)), hin]
      rfl
    · rw [if_pos (hhas.mpr hin), Bool.eq_false_of_not_eq_true hin]
      rfl

theorem repeatWarnings_eq (h : s.IsWhole) (steps : Int) :
    repeatWarnings i s = .ok (told rows cols i s steps .repeated) := by
  have hhas : s.Has rows cols steps .repeated ↔ ¬ LooseCell.hasRepeats s.collected = false :=
    not_congr LooseCell.hasRepeats_eq_false_iff.symm
  rw [repeatWarnings, withoutHash?_eq_none_iff.mpr h.collected, told]
  cases hr : LooseCell.hasRepeats s.collected with
  | false =>
    rw [if_neg (mt hhas.mp (not_not_intro hr))]
    rfl
  | true =>
    rw [if_pos (hhas.mpr (by simp [hr]))]
    rfl

theorem stepWarnings_eq (h : s.IsWhole) (hsteps : steps.isInteger = true) :
    stepWarnings i steps (.state s) = .ok (told rows cols i s steps.whole .backwards) := by
  have hhas : s.Has rows cols steps.whole .backwards ↔ s.stepCount.whole < steps.whole := Iff.rfl
  have hwarnings : stepWarnings i steps (.state s) = (do
      if ← isLess s.stepCount steps then pure [label i ++ " step count went backwards"]
      else pure []) := rfl
  rw [hwarnings, isLess_of_isInteger h.stepCount hsteps, told]
  by_cases hless : s.stepCount.whole < steps.whole
  · rw [if_pos (hhas.mpr hless), decide_eq_true hless]
    rfl
  · rw [if_neg (mt hhas.mp hless), decide_eq_false hless]
    rfl

/-- What one state adds, its comparison with the steps so far included. -/
theorem check_whole (h : s.IsWhole) (hsteps : steps.isInteger = true) :
    ∃ own back, check i (.ofSides rows cols) (.state s) = .ok own ∧
      stepWarnings i steps (.state s) = .ok back ∧
      own ++ back = (s.flaws rows cols steps.whole).map (Flaw.text (.ofSides rows cols) i s) := by
  have hcoordinates : coordinateWarnings i s = [] := if_pos (by rw [h.row, h.col]; rfl)
  have hown : check i (.ofSides rows cols) (.state s) =
      .ok (told rows cols i s steps.whole .direction ++ told rows cols i s steps.whole .outside ++
        told rows cols i s steps.whole .repeated) := by
    rw [check, boundsWarnings_eq rows cols i h steps.whole,
      repeatWarnings_eq rows cols i h steps.whole, directionWarnings_eq rows cols i s steps.whole,
      hcoordinates]
    rfl
  refine ⟨_, _, hown, stepWarnings_eq rows cols i h hsteps, ?_⟩
  rw [texts_flaws]
  simp [Flaw.all]

end OneState

end Snapshot

end BlockGrid
