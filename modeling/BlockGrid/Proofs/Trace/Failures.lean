import BlockGrid.Proofs.Trace.RoundTrip

/-!
# BlockGrid.Proofs.Trace.Failures

What a write that fails leaves behind.

* `fetch_abandon`  — a name without anything under it changes nothing that can be read.
* `stuck_of_taken` — once the next name is taken, no later write of the session succeeds.
* `aftermath_self`, `aftermath_abandon` — a write fails with the store untouched, or with the next
  name taken.
* `write_failed`   — a write that fails leaves the count and all runs as they were. It leaves the
  next name free only if it failed in the check.
-/

namespace BlockGrid

namespace Store

variable {s s' : Store} {t : LooseTrace} {e : WriteError}

theorem mem_insertName {name n : String} {ns : List String} :
    n ∈ insertName name ns ↔ n = name ∨ n ∈ ns := by
  induction ns with
  | nil => simp [insertName]
  | cons m ns ih =>
    unfold insertName
    split
    · simp
    · rw [List.mem_cons, ih, List.mem_cons]
      tauto

theorem mem_names {n : String} : n ∈ s.names ↔ n ∈ s.entries.map Prod.fst := by
  unfold names
  induction s.entries.map Prod.fst with
  | nil => simp
  | cons m ns ih => rw [List.foldr_cons, mem_insertName, ih, List.mem_cons]

theorem Free.not_mem_names (h : s.Free) : runName s.count ∉ s.names := by
  intro hmem
  obtain ⟨⟨n, e⟩, he, hn⟩ := List.mem_map.mp (mem_names.mp hmem)
  have hne := List.lookup_eq_none_iff.mp h (n, e) he
  simp [← hn] at hne

/-! ## What can be read -/

theorem find_congr (h : s'.entries = s.entries) (name : String) : s'.find name = s.find name := by
  simp only [find, h]

theorem fetch_congr (h : s'.entries = s.entries) (v : Json) : s'.fetch v = s.fetch v := by
  simp only [fetch, read, find_congr h]

theorem lookup_abandon (h : s.Free) (name : String) :
    s.abandon.entries.lookup name =
      if name = runName s.count then some none else s.entries.lookup name := by
  show (s.entries ++ [(runName s.count, none)]).lookup name = _
  rw [List.lookup_append]
  by_cases hn : name = runName s.count
  · subst hn
    rw [if_pos rfl, show s.entries.lookup _ = none from h]
    simp
  · rw [if_neg hn]
    simp [List.lookup_cons, beq_eq_false_iff_ne.mpr hn]

theorem find_abandon (h : s.Free) (name : String) (entry : Entry) :
    s.abandon.find name = .ok entry ↔ s.find name = .ok entry := by
  unfold find
  cases stepsOf? name with
  | none => rfl
  | some steps =>
    match steps with
    | [] => rfl
    | [step] =>
      simp only [lookup_abandon h]
      by_cases hstep : String.ofList step = runName s.count
      · rw [if_pos hstep, hstep, show s.entries.lookup _ = none from h]
        simp
      · rw [if_neg hstep]
    | _ :: _ :: _ => rfl

theorem read_eq_ok_iff {name : String} {t : Trace Actor} : s.read name = .ok t ↔
    ∃ e, s.find name = .ok e ∧ (do
      let initial ← readInitial e.initial
      let states ← e.columns.states.mapError .unpack
      pure ⟨.str e.challengeId, initial, states, successOf e.success, .str e.outcome,
        e.program.getD .null⟩ : Except ReadBackError (Trace Actor)) = .ok t := by
  rw [read]
  cases s.find name with
  | error e =>
    constructor
    · intro h; cases h
    · rintro ⟨e', he', -⟩; cases he'
  | ok e =>
    constructor
    · intro h; exact ⟨e, rfl, h⟩
    · rintro ⟨e', he', h⟩; cases he'; exact h

theorem fetch_abandon (h : s.Free) (v : Json) (t : Trace Actor) :
    s.abandon.fetch v = .ok t ↔ s.fetch v = .ok t := by
  unfold fetch
  cases nameOf v with
  | error e => rfl
  | ok name =>
    show s.abandon.read name = .ok t ↔ s.read name = .ok t
    simp only [read_eq_ok_iff, find_abandon h]

theorem fetch_abandoned (h : s.Free) : s.abandon.fetch (.nat s.count) = .error .incomplete := by
  have hfind : s.abandon.find (runName s.count) = .error .incomplete := by
    rw [find_runName, lookup_abandon h, if_pos rfl]
  rw [Json.nat, fetch_int, read, hfind]
  rfl

theorem Free.not_free_abandon (h : s.Free) : ¬ s.abandon.Free := by
  show s.abandon.entries.lookup (runName s.count) ≠ none
  rw [lookup_abandon h, if_pos rfl]
  exact Option.some_ne_none none

theorem mem_names_abandon (s : Store) : runName s.count ∈ s.abandon.names := by
  rw [mem_names]
  show runName s.count ∈ (s.entries ++ [(runName s.count, none)]).map Prod.fst
  simp

theorem fetch_added {t : Trace Actor} (h : s.Free) (ht : t.Storable) :
    (s.add t.entry).fetch (.nat s.count) = .ok t := by
  have hentry : (s.add t.entry).entries.lookup (runName s.count) = some (some t.entry) := by
    show (s.entries ++ [(runName s.count, some t.entry)]).lookup _ = _
    rw [List.lookup_append, show s.entries.lookup _ = none from h]
    simp
  have hfind : (s.add t.entry).find (runName s.count) = .ok t.entry := by
    rw [find_runName, hentry]
  rw [Json.nat, fetch_int, read_of_find ht hfind]

/-! ## Sessions that go on -/

/-- Nothing more is stored once the next name is taken. -/
theorem stuck_of_taken (h : ¬ s.Free) (more : List (Deed Json LooseTrace)) :
    (∀ r ∈ s.answers more, ∃ e, r = .error e) ∧
      (more.foldl perform s).entries = s.entries ∧ (more.foldl perform s).count = s.count := by
  induction more generalizing s with
  | nil => exact ⟨fun r hr => (nomatch hr), rfl, rfl⟩
  | cons d more ih =>
    cases d with
    | save config =>
      have hrest := ih (s := s.saveWorld config) h
      exact hrest
    | write t =>
      obtain ⟨e, hw⟩ := write_of_taken (t := t) h
      obtain ⟨hanswers, hentries, hcount⟩ := ih h
      refine ⟨fun r hr => ?_, ?_, ?_⟩
      · rcases List.mem_cons.mp hr with rfl | hr
        · exact ⟨e, by rw [hw]⟩
        · rw [hw] at hr
          exact hanswers r hr
      · rw [List.foldl_cons, perform, hw, hentries]
      · rw [List.foldl_cons, perform, hw, hcount]

/-- Why a write fails, and what the store is then. -/
theorem write_error_cases (h : (s.write t).1 = .error e) :
    s.Free ∧ s.warnings t = .error e ∧ (s.write t).2 = s ∨ ¬ s.Free ∧ (s.write t).2 = s ∨
      s.Free ∧ (∃ found, s.warnings t = .ok found) ∧ (s.write t).2 = s.abandon := by
  rcases s.write_cases t with ⟨e', hw, hs⟩ | ⟨found, hw, ⟨ht, hs⟩ | ⟨hf, ⟨e', -, hs⟩ | ⟨e', -, hs⟩⟩⟩
  · rw [hs] at h ⊢
    cases h
    by_cases hfree : s.Free
    · exact .inl ⟨hfree, hw, rfl⟩
    · exact .inr (.inl ⟨hfree, rfl⟩)
  · rw [hs]
    exact .inr (.inl ⟨ht, rfl⟩)
  · rw [hs]
    exact .inr (.inr ⟨hf, ⟨found, hw⟩, rfl⟩)
  · rw [hs] at h
    cases h

/-- What is left of a session, `s'`, after a write to `s` that failed with `e`. -/
structure Aftermath (s : Store) (t : LooseTrace) (e : WriteError) (s' : Store) : Prop where
  count : s'.count = s.count
  world : s'.world = s.world
  runs : ∀ v r, s'.fetch v = .ok r ↔ s.fetch v = .ok r
  free_iff : s'.Free ↔ s.Free ∧ s.warnings t = .error e
  unchanged : s'.Free → s' = s
  /-- The write that follows gets the name that the failed one would have had. -/
  goes_on : s'.Free → ∀ next : Trace Actor, next.Storable → s'.admission next = .ok () →
    ∀ found, s'.warnings next.loose = .ok found →
      (s'.write next.loose).1 = .ok (runName s.count, found) ∧
        (s'.write next.loose).2.fetch (.nat s.count) = .ok next
  /-- The name is listed, and the run under it is not there. -/
  listed : s.Free → ¬ s'.Free → runName s.count ∉ s.names ∧ runName s.count ∈ s'.names ∧
    s'.fetch (.nat s.count) = .error .incomplete
  /-- No write of the session succeeds any more, and the runs are still there. -/
  stuck : ¬ s'.Free → ∀ more : List (Deed Json LooseTrace),
    (∀ r ∈ s'.answers more, ∃ e, r = .error e) ∧ (more.foldl perform s').count = s.count ∧
      ∀ v r, (more.foldl perform s').fetch v = .ok r ↔ s.fetch v = .ok r

/-- No session goes on past a name that is taken. -/
theorem runs_of_taken {s' : Store} (h : ¬ s'.Free) (hcount : s'.count = s.count)
    (hruns : ∀ v r, s'.fetch v = .ok r ↔ s.fetch v = .ok r) (more : List (Deed Json LooseTrace)) :
    (∀ r ∈ s'.answers more, ∃ e, r = .error e) ∧ (more.foldl perform s').count = s.count ∧
      ∀ v r, (more.foldl perform s').fetch v = .ok r ↔ s.fetch v = .ok r := by
  obtain ⟨hanswers, hentries, hmore⟩ := stuck_of_taken h more
  refine ⟨hanswers, hmore.trans hcount, fun v r => ?_⟩
  rw [fetch_congr hentries, hruns]

/-- A failure that has not touched the store: in the check, unless the name was taken. -/
theorem aftermath_self (h : s.Free → s.warnings t = .error e) : s.Aftermath t e s where
  count := rfl
  world := rfl
  runs _ _ := Iff.rfl
  free_iff := ⟨fun hfree => ⟨hfree, h hfree⟩, fun hfree => hfree.1⟩
  unchanged _ := rfl
  goes_on hfree next hnext hadmission found hfound := by
    rw [hfree.write_admitted hnext hadmission hfound]
    exact ⟨rfl, fetch_added hfree hnext⟩
  listed hfree hstuck := absurd hfree hstuck
  stuck hstuck := runs_of_taken hstuck rfl fun _ _ => Iff.rfl

/-- A failure behind the check. -/
theorem aftermath_abandon (hfree : s.Free) {found : List String} (h : s.warnings t = .ok found) :
    s.Aftermath t e s.abandon := by
  have htaken : ¬ s.abandon.Free := hfree.not_free_abandon
  constructor
  · rfl
  · rfl
  · exact fetch_abandon hfree
  · refine ⟨fun h' => absurd h' htaken, fun h' => ?_⟩
    rw [h] at h'
    cases h'.2
  · exact fun h' => absurd h' htaken
  · exact fun h' => absurd h' htaken
  · exact fun _ _ => ⟨hfree.not_mem_names, mem_names_abandon s, fetch_abandoned hfree⟩
  · exact fun _ => runs_of_taken htaken rfl (fetch_abandon hfree)

theorem write_failed (h : (s.write t).1 = .error e) : s.Aftermath t e (s.write t).2 := by
  rcases write_error_cases h with ⟨-, hw, hs⟩ | ⟨hf, hs⟩ | ⟨hf, ⟨found, hw⟩, hs⟩
  · rw [hs]
    exact aftermath_self fun _ => hw
  · rw [hs]
    exact aftermath_self fun hfree => absurd hfree hf
  · rw [hs]
    exact aftermath_abandon hf hw

/-- A session with all options as they usually are, before anything is written. -/
def usual : Store := empty ⟨true, Compression.default⟩

/-- A run that ends on row `r`. -/
def runToRow (r : Int) : Trace Actor :=
  ⟨.str "far", none, [⟨r, 0, "down", [], [], 1⟩], .bool false, .str "incomplete", .arr []⟩

section FarRow

variable {r : Int}

theorem warnings_runToRow (r : Int) : usual.warnings (runToRow r).loose = .ok [] := rfl

theorem storable_runToRow (h : Packed.fitsBits 32 r = true) : (runToRow r).Storable where
  challengeId := ⟨_, rfl⟩
  initial := nofun
  states a ha := by
    cases List.mem_singleton.mp ha
    exact ⟨⟨h, rfl, nofun, nofun, rfl⟩, rfl⟩
  success := .inr ⟨_, rfl⟩
  outcome := ⟨_, by decide, rfl⟩

theorem write_nearRow (h : Packed.fitsBits 32 r = true) :
    usual.write (runToRow r).loose =
      (.ok ("run_0000", []), usual.add (runToRow r).entry) := by
  have ht := storable_runToRow h
  have hid : '\x00' ∉ "far".toList := by decide
  have houtcome : '\x00' ∉ "incomplete".toList := by decide
  have hadmission : usual.admission (runToRow r) = .ok () :=
    admission_eq_ok ht hid houtcome fun _ => rfl
  have hfree : usual.Free := rfl
  exact hfree.write_admitted ht hadmission (warnings_runToRow r)

theorem write_farRow {e : PackError} (h : Packed.fit r = .error e) :
    usual.write (runToRow r).loose = (.error (.pack e), usual.abandon) := by
  have hid : label (.str "far") = .ok "far" := label_of_plain (by decide)
  have houtcome : label (knownOutcome (.str "incomplete")) = .ok "incomplete" :=
    label_of_plain (by decide)
  have hsuccess : label (.int 0) = .ok "0" := rfl
  have hcolumns : Packed.ofSnapshots ((runToRow r).states.map .ofActor) = .error e := by
    show (do let row ← (do let n ← Packed.fit r; let ns ← pure []; pure (n :: ns)); _) = _
    rw [h]
    rfl
  refine write_of_error (warnings_runToRow r) rfl ?_
  show (do
    let challengeId ← label (.str "far")
    let outcome ← label (knownOutcome (.str "incomplete"))
    let _ ← label (.int 0)
    let columns ← (Packed.ofSnapshots ((runToRow r).states.map .ofActor)).mapError .pack
    usual.options.compression.check.mapError .compression
    pure (⟨challengeId, outcome, 0, some (.arr []), none, columns⟩ : Entry)) = _
  rw [hid, houtcome, hsuccess, hcolumns]
  rfl

end FarRow

/-- A row of thirty-three bits fails behind the check. -/
theorem write_failed_farRow :
    (usual.write (runToRow 2147483648).loose).1 =
        .error (.pack (.outOfRange 2147483648)) ∧
      usual.Aftermath (runToRow 2147483648).loose (.pack (.outOfRange 2147483648))
        (usual.write (runToRow 2147483648).loose).2 := by
  have hfailed := congrArg Prod.fst (write_farRow (r := 2147483648) rfl)
  exact ⟨hfailed, write_failed hfailed⟩

/-- A failed write does not leave a session as it was: the row of thirty-two bits that could be
written before cannot be written after it, and there is a name without a run. -/
theorem farRow_leaves_name :
    (usual.write (runToRow 2147483648).loose).1 =
        .error (.pack (.outOfRange 2147483648)) ∧
      (usual.write (runToRow 2147483647).loose).1 = .ok ("run_0000", []) ∧
      usual.names = [] ∧
      (usual.write (runToRow 2147483648).loose).2.names = ["run_0000"] ∧
      (usual.write (runToRow 2147483648).loose).2.fetch (.int 0) = .error .incomplete ∧
      ((usual.write (runToRow 2147483648).loose).2.write
        (runToRow 2147483647).loose).1 = .error .nameTaken := by
  have hfar := write_farRow (r := 2147483648) rfl
  have hnear := write_nearRow (r := 2147483647) (by decide)
  rw [hfar, hnear]
  have hfree : usual.Free := rfl
  exact ⟨rfl, rfl, rfl, rfl, fetch_abandoned hfree, rfl⟩

end Store

end BlockGrid
