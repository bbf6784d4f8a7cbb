import BlockGrid.Proofs.Fallible
import BlockGrid.Proofs.Number.Value
import BlockGrid.Trace.Check
import Mathlib.Data.List.Chain

/-!
# BlockGrid.Proofs.Trace.Comparisons

When a trace can be checked at all. A check warns of a value of the wrong kind and goes on to compare
it, so it has an answer just when everything that it comes to compare can be compared.

* `Bounds.ofSides`     — a size of whole numbers, or none.
* `LooseActor.Checkable`, `Trace.Checkable` — what can be compared in a state and in a trace.
* `Snapshot.check_answers_iff`, `checkAll_answers_iff` — one snapshot, and all of them by induction,
  with the step count of the state before.
* `mem_checkAll`       — the warning of a head that is no pair of integers is among the answers.
* `answers_iff_checkable` — the whole trace.
-/

namespace BlockGrid

namespace Bounds

variable {v : Json} {x : Extended} {rows cols : Int}

def ofSides (rows cols : Option Int) : Bounds := ⟨Json.ofOption .int rows, Json.ofOption .int cols⟩

theorem within_of_number (h : v.number? = some x) (side : Int) :
    within v (.int side) = .ok (decide (x.Inside side)) := by
  have hlow : compare "<=" Extended.le (.int 0) v = .ok ((Extended.ofInt 0).le x) := by
    rw [compare, h]
    rfl
  have hhigh : compare "<" Extended.lt v (.int side) = .ok (x.lt (.ofInt side)) := by
    rw [compare, h]
    rfl
  have hinside : decide (x.Inside side) = ((Extended.ofInt 0).le x && x.lt (.ofInt side)) := by
    rw [Bool.eq_iff_iff, decide_eq_true_iff, Extended.inside_iff]
  rw [within, hlow, hinside]
  cases (Extended.ofInt 0).le x with
  | true => exact hhigh
  | false => rfl

theorem within_answers_iff (side : Int) :
    (∃ r, within v (.int side) = .ok r) ↔ v.number?.isSome = true := by
  cases hv : v.number? with
  | some x => exact iff_of_true ⟨_, within_of_number hv side⟩ rfl
  | none =>
    have hlow : compare "<=" Extended.le (.int 0) v =
        .error (.notOrdered "<=" "int" v.kindName) := by
      rw [compare, hv]
      rfl
    refine iff_of_false ?_ Bool.false_ne_true
    rintro ⟨r, hr⟩
    rw [within, hlow] at hr
    cases hr

theorem areGiven_ofSides (rows cols : Int) : (ofSides (some rows) (some cols)).areGiven = true := rfl

/-- The column is looked at only when the row is inside. -/
theorem contains_answers_iff {c : LooseCell} :
    (∃ r, (ofSides (some rows) (some cols)).contains c = .ok r) ↔
      ∃ x, c.1.number? = some x ∧ (x.Inside rows → c.2.number?.isSome = true) := by
  have hcontains : (ofSides (some rows) (some cols)).contains c = (do
      if ← within c.1 (.int rows) then within c.2 (.int cols) else pure false) := rfl
  rw [hcontains, bind_answers_iff]
  constructor
  · rintro ⟨inside, hrow, hcol⟩
    obtain ⟨x, hx⟩ := Option.isSome_iff_exists.mp ((within_answers_iff rows).mp ⟨inside, hrow⟩)
    refine ⟨x, hx, fun hin => ?_⟩
    rw [within_of_number hx, decide_eq_true hin] at hrow
    cases hrow
    exact (within_answers_iff cols).mp hcol
  · rintro ⟨x, hx, hcol⟩
    refine ⟨_, within_of_number hx rows, ?_⟩
    by_cases hin : x.Inside rows
    · rw [decide_eq_true hin]
      exact (within_answers_iff cols).mpr (hcol hin)
    · rw [decide_eq_false hin]
      exact ⟨false, rfl⟩

end Bounds

/-- What the check compares in a state: its head with the size, if that is given, and the cells that
it has collected with one another. -/
structure LooseActor.Checkable (s : LooseActor) (rows cols : Option Int) : Prop where
  head : ∀ r c, rows = some r → cols = some c →
    ∃ x, s.row.number? = some x ∧ (x.Inside r → s.col.number?.isSome = true)
  collected : ∀ c ∈ s.collected, c.1.hasHash = true ∧ c.2.hasHash = true

namespace Snapshot

variable {rows cols : Option Int} {b : Bounds} {i : Nat} {s : LooseActor}

theorem boundsWarnings_answers_iff : (∃ ws, boundsWarnings i (.ofSides rows cols) s = .ok ws) ↔
    ∀ r c, rows = some r → cols = some c →
      ∃ x, s.row.number? = some x ∧ (x.Inside r → s.col.number?.isSome = true) := by
  match rows, cols with
  | none, _ => exact iff_of_true ⟨[], rfl⟩ nofun
  | some r, none => exact iff_of_true ⟨[], rfl⟩ nofun
  | some r, some c =>
    have hhead : (∃ inside, (Bounds.ofSides (some r) (some c)).contains s.position = .ok inside) ↔
        ∃ x, s.row.number? = some x ∧ (x.Inside r → s.col.number?.isSome = true) :=
      Bounds.contains_answers_iff
    rw [boundsWarnings, if_pos (Bounds.areGiven_ofSides r c), bind_answers_iff]
    constructor
    · rintro ⟨inside, hinside, -⟩ r' c' ⟨⟩ ⟨⟩
      exact hhead.mp ⟨inside, hinside⟩
    · intro h
      obtain ⟨inside, hinside⟩ := hhead.mpr (h r c rfl rfl)
      refine ⟨inside, hinside, ?_⟩
      cases inside with
      | true => exact ⟨_, rfl⟩
      | false => exact ⟨_, rfl⟩

theorem withoutHash?_eq_none_iff {cells : List LooseCell} : LooseCell.withoutHash? cells = none ↔
    ∀ c ∈ cells, c.1.hasHash = true ∧ c.2.hasHash = true := by
  simp [LooseCell.withoutHash?, List.find?_eq_none]

theorem repeatWarnings_answers_iff : (∃ ws, repeatWarnings i s = .ok ws) ↔
    ∀ c ∈ s.collected, c.1.hasHash = true ∧ c.2.hasHash = true := by
  rw [← withoutHash?_eq_none_iff, repeatWarnings]
  cases LooseCell.withoutHash? s.collected with
  | none => exact iff_of_true ⟨_, rfl⟩ rfl
  | some v => exact iff_of_false nofun nofun

theorem check_answers_iff :
    (∃ ws, check i (.ofSides rows cols) (.state s) = .ok ws) ↔ s.Checkable rows cols := by
  rw [check, bind_answers_iff]
  constructor
  · rintro ⟨outside, houtside, hrest⟩
    obtain ⟨repeats, hrepeats, -⟩ := bind_answers_iff.mp hrest
    exact ⟨boundsWarnings_answers_iff.mp ⟨outside, houtside⟩,
      repeatWarnings_answers_iff.mp ⟨repeats, hrepeats⟩⟩
  · rintro ⟨hhead, hcollected⟩
    obtain ⟨outside, houtside⟩ := (boundsWarnings_answers_iff (i := i)).mpr hhead
    obtain ⟨repeats, hrepeats⟩ := (repeatWarnings_answers_iff (i := i)).mpr hcollected
    exact ⟨outside, houtside, bind_answers_iff.mpr ⟨repeats, hrepeats, _, rfl⟩⟩

/-- Later findings do not replace the one on the head. -/
theorem coordinateWarnings_subset {ws : List String} (h : check i b (.state s) = .ok ws) :
    coordinateWarnings i s ⊆ ws := by
  obtain ⟨outside, -, h⟩ := exists_of_bind_eq_ok h
  obtain ⟨repeats, -, h⟩ := exists_of_bind_eq_ok h
  cases h
  rw [List.append_assoc, List.append_assoc]
  exact List.subset_append_left _ _

/-! ## All snapshots -/

/-- Step counts in a row that the check can compare. -/
def Counts (before after : Json) : Prop := ∃ r, isLess after before = .ok r

theorem stepWarnings_answers_iff {steps : Json} :
    (∃ ws, stepWarnings i steps (.state s) = .ok ws) ↔ Counts steps s.stepCount := by
  have hsteps : stepWarnings i steps (.state s) = (do
      if ← isLess s.stepCount steps then pure [label i ++ " step count went backwards"]
      else pure []) := rfl
  rw [hsteps, bind_answers_iff]
  constructor
  · rintro ⟨r, hr, -⟩
    exact ⟨r, hr⟩
  · rintro ⟨r, hr⟩
    refine ⟨r, hr, ?_⟩
    cases r with
    | true => exact ⟨_, rfl⟩
    | false => exact ⟨_, rfl⟩

theorem checkAll_cons_eq_ok_iff {steps : Json} {s : Snapshot} {ss : List Snapshot}
    {ws : List String} : checkAll b i steps (s :: ss) = .ok ws ↔
      ∃ own back others, s.check i b = .ok own ∧ s.stepWarnings i steps = .ok back ∧
        checkAll b (i + 1) (s.stepCount?.getD steps) ss = .ok others ∧
        ws = own ++ back ++ others := by
  constructor
  · intro h
    obtain ⟨own, hown, h⟩ := exists_of_bind_eq_ok h
    obtain ⟨back, hback, h⟩ := exists_of_bind_eq_ok h
    obtain ⟨others, hothers, h⟩ := exists_of_bind_eq_ok h
    exact ⟨own, back, others, hown, hback, hothers, (Except.ok.inj h).symm⟩
  · rintro ⟨own, back, others, hown, hback, hothers, rfl⟩
    rw [checkAll, hown, hback, hothers]
    rfl

/-- By induction on the snapshots. Those that are no states are passed over, and the step count of
the last state goes with them. -/
theorem checkAll_answers_iff (ss : List Snapshot) (i : Nat) (steps : Json) :
    (∃ ws, checkAll (.ofSides rows cols) i steps ss = .ok ws) ↔
      (∀ s, .state s ∈ ss → s.Checkable rows cols) ∧
        List.IsChain Counts (steps :: ss.filterMap stepCount?) := by
  induction ss generalizing i steps with
  | nil => exact iff_of_true ⟨[], rfl⟩ ⟨nofun, .singleton steps⟩
  | cons s ss ih =>
    simp only [checkAll_cons_eq_ok_iff]
    cases s with
    | foreign v =>
      have hfilter : (foreign v :: ss).filterMap stepCount? = ss.filterMap stepCount? := rfl
      have hrest := ih (i + 1) steps
      rw [hfilter]
      constructor
      · rintro ⟨ws, own, back, others, -, -, hothers, -⟩
        obtain ⟨hcheckable, hchain⟩ := hrest.mp ⟨others, hothers⟩
        refine ⟨fun s' hs' => hcheckable s' ?_, hchain⟩
        exact (List.mem_cons.mp hs').resolve_left nofun
      · rintro ⟨hcheckable, hchain⟩
        obtain ⟨others, hothers⟩ :=
          hrest.mpr ⟨fun s' hs' => hcheckable s' (List.mem_cons_of_mem _ hs'), hchain⟩
        exact ⟨_, _, [], others, rfl, rfl, hothers, rfl⟩
    | state s =>
      have hfilter : (state s :: ss).filterMap stepCount? =
          s.stepCount :: ss.filterMap stepCount? := rfl
      have hrest := ih (i + 1) s.stepCount
      rw [hfilter, List.isChain_cons_cons]
      constructor
      · rintro ⟨ws, own, back, others, hown, hback, hothers, -⟩
        obtain ⟨hcheckable, hchain⟩ := hrest.mp ⟨others, hothers⟩
        refine ⟨fun s' hs' => ?_, stepWarnings_answers_iff.mp ⟨back, hback⟩, hchain⟩
        rcases List.mem_cons.mp hs' with hs' | hs'
        · rw [Snapshot.state.inj hs']
          exact check_answers_iff.mp ⟨own, hown⟩
        · exact hcheckable s' hs'
      · rintro ⟨hcheckable, hcounts, hchain⟩
        obtain ⟨own, hown⟩ := (check_answers_iff (i := i)).mpr (hcheckable s List.mem_cons_self)
        obtain ⟨back, hback⟩ := (stepWarnings_answers_iff (i := i)).mpr hcounts
        obtain ⟨others, hothers⟩ :=
          hrest.mpr ⟨fun s' hs' => hcheckable s' (List.mem_cons_of_mem _ hs'), hchain⟩
        exact ⟨_, own, back, others, hown, hback, hothers, rfl⟩

/-- The warning of a head that is no pair of integers is among the warnings of the whole list. -/
theorem mem_checkAll {steps : Json} {ss : List Snapshot} {ws : List String}
    (h : checkAll b i steps ss = .ok ws) {k : Nat} (hk : ss[k]? = some (.state s)) :
    coordinateWarnings (i + k) s ⊆ ws := by
  induction ss generalizing i steps ws k with
  | nil => cases hk
  | cons s' ss ih =>
    obtain ⟨own, back, others, hown, -, hothers, rfl⟩ := checkAll_cons_eq_ok_iff.mp h
    cases k with
    | zero =>
      rw [List.getElem?_cons_zero] at hk
      cases hk
      rw [List.append_assoc]
      exact List.subset_append_of_subset_left _ (coordinateWarnings_subset hown)
    | succ k =>
      have hrest := ih hothers (List.getElem?_cons_succ ▸ hk)
      rw [Nat.add_right_comm] at hrest
      exact List.subset_append_of_subset_right _ hrest

end Snapshot

namespace Trace

variable {t : LooseTrace} {b : Bounds}

/-- The step count that the first state is compared with. -/
def stepsBefore (t : LooseTrace) : Json := t.initial.elim (.int 0) LooseActor.stepCount

theorem check_eq_ok_iff {ws : List String} : t.check b = .ok ws ↔
    ∃ outcome snapshots, t.outcomeWarnings = .ok outcome ∧
      Snapshot.checkAll b 0 t.stepsBefore t.states = .ok snapshots ∧
      ws = outcome ++ t.verdictWarnings ++ snapshots := by
  constructor
  · intro h
    obtain ⟨outcome, houtcome, h⟩ := exists_of_bind_eq_ok h
    obtain ⟨snapshots, hsnapshots, h⟩ := exists_of_bind_eq_ok h
    exact ⟨outcome, snapshots, houtcome, hsnapshots, (Except.ok.inj h).symm⟩
  · rintro ⟨outcome, snapshots, houtcome, hsnapshots, rfl⟩
    rw [check, houtcome]
    show (do let found ← Snapshot.checkAll b 0 t.stepsBefore t.states; _) = _
    rw [hsnapshots]
    rfl

theorem check_eq_nil_iff : t.check b = .ok [] ↔
    t.outcomeWarnings = .ok [] ∧ t.verdictWarnings = [] ∧
      Snapshot.checkAll b 0 t.stepsBefore t.states = .ok [] := by
  rw [check_eq_ok_iff]
  constructor
  · rintro ⟨outcome, snapshots, houtcome, hsnapshots, hall⟩
    obtain ⟨hfirst, rfl⟩ := List.append_eq_nil_iff.mp hall.symm
    obtain ⟨rfl, hverdict⟩ := List.append_eq_nil_iff.mp hfirst
    exact ⟨houtcome, hverdict, hsnapshots⟩
  · rintro ⟨houtcome, hverdict, hsnapshots⟩
    exact ⟨[], [], houtcome, hsnapshots, by rw [hverdict]; rfl⟩

theorem outcomeWarnings_answers_iff :
    (∃ ws, t.outcomeWarnings = .ok ws) ↔ t.outcome.hasHash = true := by
  rw [outcomeWarnings]
  by_cases hknown : (t.outcome.isNull || t.outcome.isOutcome) = true
  · rw [if_pos hknown]
    refine iff_of_true ⟨[], rfl⟩ ?_
    -- Known outcomes are texts.
    cases ho : t.outcome with
    | arr items => rw [ho] at hknown; cases hknown
    | obj entries => rw [ho] at hknown; cases hknown
    | _ => rfl
  · rw [if_neg hknown]
    cases t.outcome.hasHash with
    | true => exact iff_of_true ⟨_, rfl⟩ rfl
    | false => exact iff_of_false nofun Bool.false_ne_true

/-- What the check of a trace compares: the outcome is looked up, and each state is compared with
the size and with the state before. -/
structure Checkable (t : LooseTrace) (rows cols : Option Int) : Prop where
  outcome : t.outcome.hasHash = true
  states : ∀ s, .state s ∈ t.states → s.Checkable rows cols
  counts : List.IsChain Snapshot.Counts (t.stepsBefore :: t.states.filterMap Snapshot.stepCount?)

/-- A check has an answer just when what it compares can be compared. The answer then has a warning
of each head that is no pair of integers. -/
theorem answers_iff_checkable (t : LooseTrace) (rows cols : Option Int) :
    ((∃ ws, t.check (.ofSides rows cols) = .ok ws) ↔ t.Checkable rows cols) ∧
      ∀ ws, t.check (.ofSides rows cols) = .ok ws → ∀ i s, t.states[i]? = some (.state s) →
        ¬ (s.row.isInteger = true ∧ s.col.isInteger = true) →
        Snapshot.label i ++ " has non-integer coordinates " ++ s.position.shown ∈ ws := by
  constructor
  · constructor
    · rintro ⟨ws, h⟩
      obtain ⟨outcome, snapshots, houtcome, hsnapshots, -⟩ := check_eq_ok_iff.mp h
      obtain ⟨hstates, hcounts⟩ := (Snapshot.checkAll_answers_iff ..).mp ⟨snapshots, hsnapshots⟩
      exact ⟨outcomeWarnings_answers_iff.mp ⟨outcome, houtcome⟩, hstates, hcounts⟩
    · rintro ⟨houtcome, hstates, hcounts⟩
      obtain ⟨outcome, houtcome⟩ := outcomeWarnings_answers_iff.mpr houtcome
      obtain ⟨snapshots, hsnapshots⟩ :=
        (Snapshot.checkAll_answers_iff t.states 0 t.stepsBefore).mpr ⟨hstates, hcounts⟩
      exact ⟨_, check_eq_ok_iff.mpr ⟨outcome, snapshots, houtcome, hsnapshots, rfl⟩⟩
  · intro ws h i s hs hodd
    obtain ⟨outcome, snapshots, -, hsnapshots, rfl⟩ := check_eq_ok_iff.mp h
    have hsubset := Snapshot.mem_checkAll hsnapshots hs
    rw [Nat.zero_add, Snapshot.coordinateWarnings, if_neg (by rwa [Bool.and_eq_true])] at hsubset
    exact List.mem_append_right _ (hsubset List.mem_cons_self)

/-- A run with a state on no row. -/
def unplaced : LooseTrace :=
  ⟨.str "field", none, [.state ⟨.null, .int 0, .str "up", [], [], .int 0⟩], .null, .null, .null⟩

/-- The head that the check would warn of keeps it from giving an answer. -/
theorem unplaced_unanswered :
    unplaced.check (.ofSides (some 5) (some 5)) =
        .error (.notOrdered "<=" "int" "NoneType") ∧
      unplaced.check (.ofSides none none) =
        .ok ["snapshot 0 has non-integer coordinates (None, 0)"] := ⟨rfl, rfl⟩

end Trace

end BlockGrid
