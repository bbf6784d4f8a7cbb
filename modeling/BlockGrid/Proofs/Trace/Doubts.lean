import BlockGrid.Proofs.Trace.Flaws

/-!
# BlockGrid.Proofs.Trace.Doubts

What the check of a trace answers, one warning for each thing that is wrong.

* `Doubt`, `Trace.Raises` — what a warning is about, and when there is reason for it. A state is
  compared with the nearest one before it (`Snapshot.latest`), past values that are no states.
* `Trace.Valid`           — a trace that gives no reason for a warning, by `valid_iff`.
* `checkAll_whole`        — all snapshots by induction, with the steps so far carried along.
* `check_lists_doubts`    — the whole trace.
-/

namespace BlockGrid

/-! ## All states -/

/-- What a warning is about. -/
inductive Doubt where
  | outcome (v : Json)
  | verdict
  | foreign (i : Nat) (v : Json)
  | flaw (i : Nat) (s : LooseActor) (f : Flaw)

namespace Doubt

/-- Before the first snapshot, or at one of them. -/
def place : Doubt → Nat
  | .outcome _ => 0
  | .verdict => 0
  | .foreign i _ => i + 1
  | .flaw i _ _ => i + 1

def text (b : Bounds) : Doubt → String
  | .outcome v => "unknown outcome " ++ v.shown
  | .verdict => "cancelled runs should not carry a verdict"
  | .foreign i v =>
    Snapshot.label i ++ " should be an ActorState, got <class '" ++ v.kindName ++ "'>"
  | .flaw i s f => f.text b i s

end Doubt

namespace Snapshot

variable {rows cols : Option Int} {d : Doubt} {ss : List Snapshot} {steps : Json}

/-- What is doubtful about snapshot number `i`. -/
def doubts (rows cols : Option Int) (i : Nat) (steps : Int) : Snapshot → List Doubt
  | .foreign v => [.foreign i v]
  | .state s => (s.flaws rows cols steps).map (.flaw i s)

def doubtsFrom (rows cols : Option Int) (i : Nat) (steps : Json) : List Snapshot → List Doubt
  | [] => []
  | s :: ss =>
    s.doubts rows cols i steps.whole ++ doubtsFrom rows cols (i + 1) (s.stepCount?.getD steps) ss

/-- The step count of the last state among some snapshots, or the one from before them. -/
def latest (steps : Json) (ss : List Snapshot) : Json :=
  (ss.filterMap stepCount?).getLast?.getD steps

theorem latest_cons (s : Snapshot) : latest steps (s :: ss) =
    latest (s.stepCount?.getD steps) ss := by
  cases s with
  | foreign v => rfl
  | state s =>
    show ((s.stepCount :: ss.filterMap stepCount?).getLast?).getD steps = _
    rw [List.getLast?_cons]
    rfl

theorem checkAll_whole (h : ∀ s, .state s ∈ ss → s.IsWhole) (hsteps : steps.isInteger = true)
    (i : Nat) : checkAll (.ofSides rows cols) i steps ss =
      .ok ((doubtsFrom rows cols i steps ss).map (Doubt.text (.ofSides rows cols))) := by
  induction ss generalizing i steps with
  | nil => rfl
  | cons snap ss ih =>
    have hrest : ∀ s, .state s ∈ ss → s.IsWhole := fun s hs => h s (List.mem_cons_of_mem _ hs)
    rw [checkAll_cons_eq_ok_iff, doubtsFrom, List.map_append]
    cases snap with
    | foreign v => exact ⟨_, [], _, rfl, rfl, ih hrest hsteps (i + 1), rfl⟩
    | state s =>
      have hs : s.IsWhole := h s List.mem_cons_self
      obtain ⟨own, back, hown, hback, htexts⟩ := check_whole rows cols i hs hsteps
      refine ⟨own, back, _, hown, hback, ih hrest hs.stepCount (i + 1), ?_⟩
      rw [htexts, doubts, List.map_map]
      rfl

theorem mem_doubtsFrom (i : Nat) : d ∈ doubtsFrom rows cols i steps ss ↔
    ∃ (k : Nat) (s : Snapshot), ss[k]? = some s ∧
      d ∈ s.doubts rows cols (i + k) (latest steps (ss.take k)).whole := by
  induction ss generalizing i steps with
  | nil => simp [doubtsFrom]
  | cons s ss ih =>
    rw [doubtsFrom, List.mem_append, ih]
    constructor
    · rintro (hd | ⟨k, s', hs', hd⟩)
      · exact ⟨0, s, rfl, hd⟩
      · refine ⟨k + 1, s', hs', ?_⟩
        rwa [List.take_succ_cons, latest_cons, ← Nat.add_assoc, Nat.add_right_comm]
    · rintro ⟨k, s', hs', hd⟩
      cases k with
      | zero =>
        cases hs'
        exact .inl hd
      | succ k =>
        rw [List.take_succ_cons, latest_cons, ← Nat.add_assoc, Nat.add_right_comm] at hd
        exact .inr ⟨k, s', hs', hd⟩

theorem place_of_mem_doubts {i : Nat} {n : Int} {s : Snapshot} (hd : d ∈ s.doubts rows cols i n) :
    d.place = i + 1 := by
  cases s with
  | foreign v =>
    cases List.mem_singleton.mp hd
    rfl
  | state s =>
    obtain ⟨f, -, rfl⟩ := List.mem_map.mp hd
    rfl

theorem nodup_doubts (i : Nat) (n : Int) (s : Snapshot) : (s.doubts rows cols i n).Nodup := by
  cases s with
  | foreign v => exact List.nodup_singleton _
  | state s =>
    refine LooseActor.nodup_flaws.map fun f g hfg => ?_
    cases hfg
    rfl

/-- Warnings come in the order of the snapshots, and none of them twice. -/
theorem doubtsFrom_ordered (rows cols : Option Int) (i : Nat) (steps : Json) (ss : List Snapshot) :
    (∀ d ∈ doubtsFrom rows cols i steps ss, i < d.place) ∧ (doubtsFrom rows cols i steps ss).Nodup ∧
      (doubtsFrom rows cols i steps ss).Pairwise fun d e => d.place ≤ e.place := by
  induction ss generalizing i steps with
  | nil => exact ⟨nofun, List.nodup_nil, List.Pairwise.nil⟩
  | cons s ss ih =>
    obtain ⟨hplaces, hnodup, hordered⟩ := ih (i + 1) (s.stepCount?.getD steps)
    have hown : ∀ d ∈ s.doubts rows cols i steps.whole, d.place = i + 1 := fun _ =>
      place_of_mem_doubts
    refine ⟨?_, ?_, ?_⟩
    · intro d hd
      rcases List.mem_append.mp hd with hd | hd
      · have := hown d hd
        omega
      · have := hplaces d hd
        omega
    · refine List.nodup_append.mpr ⟨nodup_doubts _ _ s, hnodup, fun d hd e he hde => ?_⟩
      have hfirst := hown d hd
      have hlater := hplaces e he
      rw [hde] at hfirst
      omega
    · refine List.pairwise_append.mpr ⟨?_, hordered, fun d hd e he => ?_⟩
      · exact List.pairwise_of_forall_mem_list fun d hd e he => by rw [hown d hd, hown e he]
      · have hfirst := hown d hd
        have hlater := hplaces e he
        omega

end Snapshot

/-! ## The whole trace -/

namespace Json

variable {v : Json}

theorem isNull_iff : v.isNull = true ↔ v = .null := by
  cases v <;> simp [isNull]

/-- Of all values only a text is the same as a text, and only if it is that one. -/
theorem same_str_iff {s : String} : v.same (.str s) = true ↔ v = .str s := by
  cases v with
  | str s' =>
    show decide (s' = s) = true ↔ _
    rw [decide_eq_true_iff, Json.str.injEq]
  | _ => simp [same, sameNumber, number?]

end Json

namespace Trace

variable {t : LooseTrace} {rows cols : Option Int} {d : Doubt}

/-- A trace whose states, and the one that it began in, have integers in them. -/
structure IsWhole (t : LooseTrace) : Prop where
  initial : ∀ a, t.initial = some a → a.stepCount.isInteger = true
  states : ∀ a, .state a ∈ t.states → a.IsWhole

def HasOutcome (t : LooseTrace) : Prop := ∃ o : Outcome, t.outcome = .str o.name

/-- An outcome that no run has. -/
def IsOdd (t : LooseTrace) : Prop := t.outcome ≠ .null ∧ ¬ t.HasOutcome

/-- A verdict on a run that was cancelled. -/
def IsJudged (t : LooseTrace) : Prop :=
  t.success ≠ .null ∧ t.outcome = .str Outcome.cancelled.name

/-- The steps before snapshot number `i`: those of the nearest state before it, else of the state
that the run began in. -/
def stepsAt (t : LooseTrace) (i : Nat) : Int :=
  (Snapshot.latest t.stepsBefore (t.states.take i)).whole

/-- There is reason for a warning. -/
def Raises (t : LooseTrace) (rows cols : Option Int) : Doubt → Prop
  | .outcome v => t.IsOdd ∧ v = t.outcome
  | .verdict => t.IsJudged
  | .foreign i v => t.states[i]? = some (.foreign v)
  | .flaw i s f => t.states[i]? = some (.state s) ∧ s.Has rows cols (t.stepsAt i) f

/-- Nothing about the trace is doubtful. -/
structure Valid (t : LooseTrace) (rows cols : Option Int) : Prop where
  outcome : t.outcome = .null ∨ t.HasOutcome
  verdict : t.outcome = .str Outcome.cancelled.name → t.success = .null
  states : ∀ s ∈ t.states, ∃ a, s = .state a ∧ a.Faces ∧ LooseCell.Distinct a.collected ∧
    ∀ r c, rows = some r → cols = some c →
      0 ≤ a.row.whole ∧ a.row.whole < r ∧ 0 ≤ a.col.whole ∧ a.col.whole < c
  counts : ((t.stepsBefore :: t.states.filterMap Snapshot.stepCount?).map Json.whole).Pairwise
    (· ≤ ·)

/-! ### What is said before the states -/

theorem hasOutcome_iff : t.HasOutcome ↔ t.outcome.isOutcome = true := by
  constructor
  · rintro ⟨o, ho⟩
    rw [ho]
    exact o.isOutcome_name
  · intro h
    cases ho : t.outcome with
    | str name =>
      rw [ho] at h
      obtain ⟨o, -, hname⟩ := List.any_eq_true.mp h
      exact ⟨o, by rw [ho, eq_of_beq hname]⟩
    | _ =>
      rw [ho] at h
      cases h

theorem isOdd_iff : t.IsOdd ↔ (t.outcome.isNull || t.outcome.isOutcome) = false := by
  rw [IsOdd, hasOutcome_iff, ne_eq, ← Json.isNull_iff, Bool.or_eq_false_iff]
  simp only [Bool.not_eq_true]

theorem isJudged_iff : t.IsJudged ↔
    (!t.success.isNull && t.outcome.same (.str Outcome.cancelled.name)) = true := by
  rw [IsJudged, ne_eq, ← Json.isNull_iff, ← Json.same_str_iff, Bool.and_eq_true]
  simp only [Bool.not_eq_true, Bool.not_eq_true']

instance (t : LooseTrace) : Decidable t.IsOdd := decidable_of_iff _ isOdd_iff.symm

instance (t : LooseTrace) : Decidable t.IsJudged := decidable_of_iff _ isJudged_iff.symm

def ownDoubts (t : LooseTrace) : List Doubt :=
  (if t.IsOdd then [.outcome t.outcome] else []) ++ (if t.IsJudged then [.verdict] else [])

theorem mem_ownDoubts (rows cols : Option Int) :
    d ∈ t.ownDoubts ↔ d.place = 0 ∧ t.Raises rows cols d := by
  cases d <;> simp [ownDoubts, Doubt.place, Raises]

theorem nodup_ownDoubts (t : LooseTrace) : t.ownDoubts.Nodup := by
  unfold ownDoubts
  split <;> split <;> simp

theorem outcomeWarnings_eq (b : Bounds) (h : t.outcome.hasHash = true) : t.outcomeWarnings =
    .ok ((if t.IsOdd then [Doubt.outcome t.outcome] else []).map (Doubt.text b)) := by
  rw [outcomeWarnings]
  by_cases hodd : t.IsOdd
  · rw [if_neg (by rw [isOdd_iff.mp hodd]; exact Bool.false_ne_true), if_pos h, if_pos hodd]
    rfl
  · rw [if_pos (by rwa [isOdd_iff, Bool.not_eq_false] at hodd), if_neg hodd]
    rfl

theorem verdictWarnings_eq (b : Bounds) (t : LooseTrace) : t.verdictWarnings =
    (if t.IsJudged then [Doubt.verdict] else []).map (Doubt.text b) := by
  rw [verdictWarnings]
  by_cases hjudged : t.IsJudged
  · rw [if_pos (isJudged_iff.mp hjudged), if_pos hjudged]
    rfl
  · rw [if_neg (mt isJudged_iff.mpr hjudged), if_neg hjudged]
    rfl

/-! ### The states -/

theorem isInteger_stepsBefore (h : t.IsWhole) : t.stepsBefore.isInteger = true := by
  unfold stepsBefore
  cases hi : t.initial with
  | none => rfl
  | some a => exact h.initial a hi

/-- All that is doubtful about a trace. -/
def doubts (t : LooseTrace) (rows cols : Option Int) : List Doubt :=
  t.ownDoubts ++ Snapshot.doubtsFrom rows cols 0 t.stepsBefore t.states

theorem mem_statesDoubts : d ∈ Snapshot.doubtsFrom rows cols 0 t.stepsBefore t.states ↔
    d.place ≠ 0 ∧ t.Raises rows cols d := by
  rw [Snapshot.mem_doubtsFrom]
  constructor
  · rintro ⟨k, s, hs, hd⟩
    rw [Nat.zero_add] at hd
    cases s with
    | foreign v =>
      cases List.mem_singleton.mp hd
      exact ⟨Nat.succ_ne_zero k, hs⟩
    | state s =>
      obtain ⟨f, hf, rfl⟩ := List.mem_map.mp hd
      exact ⟨Nat.succ_ne_zero k, hs, LooseActor.mem_flaws.mp hf⟩
  · rintro ⟨hplace, hraises⟩
    cases d with
    | outcome v => exact absurd rfl hplace
    | verdict => exact absurd rfl hplace
    | foreign i v => exact ⟨i, _, hraises, by rw [Nat.zero_add]; exact List.mem_singleton_self _⟩
    | flaw i s f =>
      obtain ⟨hs, hf⟩ := hraises
      refine ⟨i, _, hs, ?_⟩
      rw [Nat.zero_add]
      exact List.mem_map.mpr ⟨f, LooseActor.mem_flaws.mpr hf, rfl⟩

theorem mem_doubts : d ∈ t.doubts rows cols ↔ t.Raises rows cols d := by
  rw [doubts, List.mem_append, mem_ownDoubts, mem_statesDoubts, ← or_and_right]
  exact and_iff_right (Decidable.em _)

theorem doubts_ordered (t : LooseTrace) (rows cols : Option Int) :
    (t.doubts rows cols).Nodup ∧ (t.doubts rows cols).Pairwise fun d e => d.place ≤ e.place := by
  obtain ⟨hplaces, hnodup, hordered⟩ :=
    Snapshot.doubtsFrom_ordered rows cols 0 t.stepsBefore t.states
  have hown : ∀ d ∈ t.ownDoubts, d.place = 0 := fun d hd =>
    ((mem_ownDoubts rows cols).mp hd).1
  constructor
  · refine List.nodup_append.mpr ⟨t.nodup_ownDoubts, hnodup, fun d hd e he hde => ?_⟩
    have hlater := hplaces e he
    rw [← hde, hown d hd] at hlater
    exact Nat.lt_irrefl 0 hlater
  · refine List.pairwise_append.mpr ⟨?_, hordered, fun d hd e _ => ?_⟩
    · exact List.pairwise_of_forall_mem_list fun d hd e he => by rw [hown d hd, hown e he]
    · rw [hown d hd]
      exact Nat.zero_le _

theorem check_whole (h : t.IsWhole) (hhash : t.outcome.hasHash = true) :
    t.check (.ofSides rows cols) =
      .ok ((t.doubts rows cols).map (Doubt.text (.ofSides rows cols))) := by
  have houtcome := outcomeWarnings_eq (.ofSides rows cols) hhash
  have hstates : Snapshot.checkAll (.ofSides rows cols) 0 t.stepsBefore t.states = .ok _ :=
    Snapshot.checkAll_whole h.states (isInteger_stepsBefore h) 0
  refine check_eq_ok_iff.mpr ⟨_, _, houtcome, hstates, ?_⟩
  rw [verdictWarnings_eq (.ofSides rows cols), doubts, ownDoubts, List.map_append, List.map_append]

theorem check_of_not_hasHash {b : Bounds} (h : t.outcome.hasHash = false) :
    t.check b = .error (.noHash t.outcome.kindName) := by
  have houtcome : t.outcomeWarnings = .error (.noHash t.outcome.kindName) := by
    rw [outcomeWarnings]
    cases ho : t.outcome with
    | arr items => rfl
    | obj entries => rfl
    | _ => rw [ho] at h; cases h
  rw [check, houtcome]
  rfl

/-! ### Valid traces -/

/-- Step counts never fall exactly if none of them is below that of the nearest state before. -/
theorem counts_iff (ss : List Snapshot) (steps : Json) :
    ((steps :: ss.filterMap Snapshot.stepCount?).map Json.whole).Pairwise (· ≤ ·) ↔
      ∀ (k : Nat) s, ss[k]? = some (.state s) →
        (Snapshot.latest steps (ss.take k)).whole ≤ s.stepCount.whole := by
  rw [← List.isChain_iff_pairwise]
  induction ss generalizing steps with
  | nil => exact iff_of_true (List.isChain_singleton _) nofun
  | cons snap ss ih =>
    have hshift : (∀ (k : Nat) s, (snap :: ss)[k]? = some (.state s) →
          (Snapshot.latest steps ((snap :: ss).take k)).whole ≤ s.stepCount.whole) ↔
        (∀ s, snap = .state s → steps.whole ≤ s.stepCount.whole) ∧
          ∀ (k : Nat) s, ss[k]? = some (.state s) →
            (Snapshot.latest (snap.stepCount?.getD steps) (ss.take k)).whole ≤ s.stepCount.whole := by
      constructor
      · intro h
        refine ⟨fun s hs => h 0 s (congrArg some hs), fun k s hs => ?_⟩
        have := h (k + 1) s hs
        rwa [List.take_succ_cons, Snapshot.latest_cons] at this
      · rintro ⟨hfirst, hrest⟩ k s hs
        cases k with
        | zero => exact hfirst s (Option.some.inj hs)
        | succ k =>
          rw [List.take_succ_cons, Snapshot.latest_cons]
          exact hrest k s hs
    rw [hshift, ← ih]
    cases snap with
    | foreign v => exact (and_iff_right nofun).symm
    | state s =>
      show List.IsChain _ (steps.whole :: s.stepCount.whole :: _) ↔ _
      rw [List.isChain_cons_cons]
      refine and_congr_left' ⟨fun h s' hs' => ?_, fun h => h s rfl⟩
      cases hs'
      exact h

theorem Valid.not_raises (h : t.Valid rows cols) (d : Doubt) : ¬ t.Raises rows cols d := by
  intro hd
  cases d with
  | outcome v => exact h.outcome.elim hd.1.1 hd.1.2
  | verdict => exact hd.1 (h.verdict hd.2)
  | foreign i v =>
    obtain ⟨a, ha, -⟩ := h.states _ (List.mem_of_getElem? hd)
    cases ha
  | flaw i s f =>
    obtain ⟨hs, hf⟩ := hd
    obtain ⟨a, ha, hfaces, hdistinct, hinside⟩ := h.states _ (List.mem_of_getElem? hs)
    cases ha
    cases f with
    | direction => exact hf hfaces
    | outside =>
      obtain ⟨r, hr, c, hc, hout⟩ := hf
      exact hout (decide_eq_true (hinside r c hr hc))
    | repeated => exact hf hdistinct
    | backwards =>
      exact absurd ((counts_iff t.states t.stepsBefore).mp h.counts i s hs) (Int.not_le.mpr hf)

theorem valid_of_not_raises (h : ∀ d, ¬ t.Raises rows cols d) : t.Valid rows cols where
  outcome := by
    by_contra hodd
    rw [not_or] at hodd
    exact h (.outcome t.outcome) ⟨hodd, rfl⟩
  verdict := by
    intro hcancelled
    by_contra hsuccess
    exact h .verdict ⟨hsuccess, hcancelled⟩
  states := by
    intro s hs
    obtain ⟨i, hi⟩ := List.mem_iff_getElem?.mp hs
    cases s with
    | foreign v => exact absurd hi (h (.foreign i v))
    | state a =>
      have hflaw : ∀ f, ¬ a.Has rows cols (t.stepsAt i) f := fun f hf => h (.flaw i a f) ⟨hi, hf⟩
      refine ⟨a, rfl, not_not.mp (hflaw .direction), not_not.mp (hflaw .repeated), ?_⟩
      intro r c hr hc
      by_contra hout
      exact hflaw .outside ⟨r, hr, c, hc, fun hin => hout (of_decide_eq_true hin)⟩
  counts := by
    rw [counts_iff]
    intro k s hs
    by_contra hless
    exact h (.flaw k s .backwards) ⟨hs, Int.not_le.mp hless⟩

/-- A trace is valid exactly if it gives no reason for a warning. -/
theorem valid_iff : t.Valid rows cols ↔ ∀ d, ¬ t.Raises rows cols d :=
  ⟨Valid.not_raises, valid_of_not_raises⟩

/-- The check of a trace with integers in it. It answers with the empty list exactly for valid
traces. Its answer has one warning for each doubt there is reason for, those on the trace first and
the others in the order of the states; only an outcome that nothing can be looked up by keeps it from
answering. -/
theorem check_lists_doubts (t : LooseTrace) (rows cols : Option Int) (h : t.IsWhole) :
    (t.check (.ofSides rows cols) = .ok [] ↔ t.Valid rows cols) ∧
    (t.outcome.hasHash = true → ∃ ds : List Doubt,
      t.check (.ofSides rows cols) = .ok (ds.map (Doubt.text (.ofSides rows cols))) ∧
      (∀ d, d ∈ ds ↔ t.Raises rows cols d) ∧ ds.Nodup ∧
      ds.Pairwise fun d e => d.place ≤ e.place) ∧
    (t.outcome.hasHash = false →
      t.check (.ofSides rows cols) = .error (.noHash t.outcome.kindName)) := by
  refine ⟨?_, fun hhash => ⟨t.doubts rows cols, check_whole h hhash, fun d => mem_doubts,
    t.doubts_ordered rows cols⟩, check_of_not_hasHash⟩
  rw [valid_iff]
  cases hhash : t.outcome.hasHash with
  | true =>
    rw [check_whole h hhash, Except.ok.injEq, List.map_eq_nil_iff, List.eq_nil_iff_forall_not_mem]
    exact forall_congr' fun d => not_congr mem_doubts
  | false =>
    rw [check_of_not_hasHash hhash]
    refine iff_of_false nofun fun hnone => hnone (.outcome t.outcome) ⟨⟨?_, ?_⟩, rfl⟩
    · intro hnull
      rw [hnull] at hhash
      cases hhash
    · rintro ⟨o, ho⟩
      rw [ho] at hhash
      cases hhash

/-- Values that are no states between two states. The second has taken fewer steps than the first,
though more than none. -/
def erratic : LooseTrace where
  challengeId := .str "odd"
  initial := none
  states := [.foreign .null,
    .state ⟨.int 5, .bool true, .str "north", [], [(.int 1, .int 0), (.bool true, .int 0)], .int 2⟩,
    .foreign (.str "x"), .state ⟨.int 0, .int 0, .str "up", [], [], .int 1⟩]
  success := .bool true
  outcome := .str "teleported"
  program := .null

theorem isWhole_erratic : erratic.IsWhole where
  initial := by
    intro s hs
    cases hs
  states := by
    intro a ha
    have hcases : a = ⟨.int 5, .bool true, .str "north", [],
        [(.int 1, .int 0), (.bool true, .int 0)], .int 2⟩ ∨
        a = ⟨.int 0, .int 0, .str "up", [], [], .int 1⟩ := by simpa [erratic] using ha
    rcases hcases with rfl | rfl
    · exact ⟨rfl, rfl, rfl, by simp [Json.hasHash]⟩
    · exact ⟨rfl, rfl, rfl, by simp⟩

theorem check_lists_doubts_erratic : erratic.IsWhole ∧
    erratic.check (.ofSides (some 3) (some 3)) = .ok ["unknown outcome 'teleported'",
      "snapshot 0 should be an ActorState, got <class 'NoneType'>",
      "snapshot 1 has unknown direction 'north'", "snapshot 1 head (5, True) is outside 3x3",
      "snapshot 1 lists a collectible more than once",
      "snapshot 2 should be an ActorState, got <class 'str'>",
      "snapshot 3 step count went backwards"] ∧
    ¬ erratic.Valid (some 3) (some 3) ∧
    ∃ ds : List Doubt,
      erratic.check (.ofSides (some 3) (some 3)) =
        .ok (ds.map (Doubt.text (.ofSides (some 3) (some 3)))) ∧
      (∀ d, d ∈ ds ↔ erratic.Raises (some 3) (some 3) d) ∧ ds.Nodup ∧
      ds.Pairwise fun d e => d.place ≤ e.place := by
  have hcheck : erratic.check (.ofSides (some 3) (some 3)) = .ok ["unknown outcome 'teleported'",
      "snapshot 0 should be an ActorState, got <class 'NoneType'>",
      "snapshot 1 has unknown direction 'north'", "snapshot 1 head (5, True) is outside 3x3",
      "snapshot 1 lists a collectible more than once",
      "snapshot 2 should be an ActorState, got <class 'str'>",
      "snapshot 3 step count went backwards"] := by rfl
  obtain ⟨hvalid, hlists, -⟩ := check_lists_doubts erratic (some 3) (some 3) isWhole_erratic
  refine ⟨isWhole_erratic, hcheck, fun h => ?_, hlists rfl⟩
  have hnil := hvalid.mpr h
  rw [hcheck] at hnil
  cases hnil

end Trace

end BlockGrid
