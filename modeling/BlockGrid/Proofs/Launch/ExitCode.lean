import BlockGrid.Json.Writer
import BlockGrid.Proofs.Command.Count
import BlockGrid.Proofs.File.Reading
import BlockGrid.Proofs.Launch.Archive
import BlockGrid.Proofs.Launch.Notices

/-!
# BlockGrid.Proofs.Launch.ExitCode

What the exit code of a launch says.

* `Settings.Barred`, `Options.Barred` — the reasons for which no run is begun, each with the gates
  that it needs and no others; `not_barred` and `barred_of_missed`, they are the gates.
* `Launch.Decided`    — what the code of a run says of it, and of what was stored of it.
* `cases_of_exitCode` — a code comes from a rejection or from a run.
* `exitCode_decides`  — every exit code: two for what is barred, and else the verdict of the run.
-/

namespace BlockGrid

/-- Whether a document can be a program: nothing, or a list. -/
def Json.isProgram : Json → Bool
  | .null => true
  | .arr _ => true
  | _ => false

theorem Tree.nodes?_ofJson (v : Json) : (Tree.ofJson v).nodes?.isSome = v.isProgram := by
  cases v <;> rfl

theorem Program.isProgram_of_ofTree {v : Json} {p : Program Tree}
    (h : Program.ofTree (.ofJson v) = .ok p) : v.isProgram = true := by
  rw [← Tree.nodes?_ofJson]
  cases hn : (Tree.ofJson v).nodes? with
  | some nodes => rfl
  | none =>
    obtain ⟨kind, he⟩ := Program.notSequence_iff.mpr hn
    cases he.symm.trans h

/-! ## What bars a run -/

/-- Why settings allow no run. -/
inductive Settings.Barred (host : Host) (folder : Folder) (s : Settings) : Prop
  | catalog {e : SetupError} :
      Catalog.read host.strictChecker folder s.catalogPath = .error e → Barred host folder s
  | challenge {c : Catalog} {e : SetupError} :
      Catalog.read host.strictChecker folder s.catalogPath = .ok c →
      c.find s.challengeId = .error e → Barred host folder s
  | world {c : Catalog} {d : Challenge} {e : LayoutError} :
      Catalog.read host.strictChecker folder s.catalogPath = .ok c → c.find s.challengeId = .ok d →
      d.world = .error e → Barred host folder s
  | program : (∀ v, folder.readJson (.str s.programPath) = .ok v → v.isProgram = false) →
      Barred host folder s
  | blocks {c : Catalog} {d : Challenge} {v : Json} {p : Program Tree} {n : Int} :
      s.enforceBlockLimit.isTruthy = true →
      Catalog.read host.strictChecker folder s.catalogPath = .ok c →
      c.find s.challengeId = .ok d → d.maxBlocks = some n →
      folder.readJson (.str s.programPath) = .ok v → Program.ofTree (.ofJson v) = .ok p →
      n < countBlocks p → Barred host folder s

/-- Why options allow no run. -/
inductive Options.Barred (host : Host) (folder : Folder) (o : Options) : Prop
  | settings {e : SettingsError} : Settings.ofOptions folder o = .error e → Barred host folder o
  | setup {s : Settings} : Settings.ofOptions folder o = .ok s → s.Barred host folder →
      Barred host folder o

namespace Launch

open Stage

variable {host : Host} {folder : Folder} {stamp : String} {arguments : List String} {o : Options}
  {s : Settings} {u : Setup}

theorem isOverBudget_iff : isOverBudget s u = true ↔ s.enforceBlockLimit.isTruthy = true ∧
    ∃ n, u.challenge.maxBlocks = some n ∧ n < countBlocks u.program := by
  unfold isOverBudget Challenge.allows
  cases u.challenge.maxBlocks <;> simp

/-- A launch that has passed all of the gates was not barred at any of them. -/
theorem not_barred {c : Catalog} {v : Json} (hu : u.FoundBy host folder s c v)
    (hbudget : isOverBudget s u = false) : ¬ s.Barred host folder := by
  intro h
  cases h with
  | catalog hc => cases hu.catalog.symm.trans hc
  | challenge hc hd =>
    cases hu.catalog.symm.trans hc
    cases hu.challenge.symm.trans hd
  | world hc hd hw =>
    cases hu.catalog.symm.trans hc
    cases hu.challenge.symm.trans hd
    cases hu.world.symm.trans hw
  | program hv => cases (hv v hu.document).symm.trans (Program.isProgram_of_ofTree hu.program)
  | blocks henforced hc hd hn hv hp hover =>
    cases hu.catalog.symm.trans hc
    cases hu.challenge.symm.trans hd
    cases hu.document.symm.trans hv
    cases hu.program.symm.trans hp
    cases hbudget.symm.trans (isOverBudget_iff.mpr ⟨henforced, _, hn, hover⟩)

theorem barred_of_missed {e : SetupError} (h : Setup.MissedBy host folder s e)
    (he : e.isAnswered = true) : s.Barred host folder := by
  cases h with
  | catalog hc => exact .catalog hc
  | challenge hc hd => exact .challenge hc hd
  | world hc hd hw => exact .world hc hd hw
  | document hc hd hw hv =>
    refine .program fun v h => ?_
    cases hv.symm.trans h
  | @program c d w v e hc hd hw hv hp =>
    cases e with
    | badNumeral text => cases he
    | notSequence kind =>
      refine .program fun v' h => ?_
      cases hv.symm.trans h
      rw [← Tree.nodes?_ofJson, Program.notSequence_iff.mp ⟨kind, hp⟩]
      rfl

theorem barred_of_overBudget {c : Catalog} {v : Json} (hu : u.FoundBy host folder s c v)
    (hbudget : isOverBudget s u = true) : s.Barred host folder := by
  obtain ⟨henforced, n, hn, hover⟩ := isOverBudget_iff.mp hbudget
  exact .blocks henforced hu.catalog hu.challenge hn hu.document hu.program hover

/-! ## What the code says -/

theorem launch_of_settings (ho : Options.parse arguments = .ok o)
    (hs : Settings.ofOptions folder o = .ok s) :
    launch host folder stamp arguments = ofSettings host folder stamp s := by
  have hsettings : settings folder arguments = done s := by
    simp only [settings, ho, hs]
  rw [launch, hsettings, bind_ok rfl]
  rfl

theorem result_of_merge {m : MergeError} (ho : Options.parse arguments = .ok o)
    (hs : Settings.ofOptions folder o = .error (.merge m)) :
    (launch host folder stamp arguments).result = .error (.failed (.settings (.merge m))) := by
  have hsettings : settings folder arguments = stop [] (.failed (.settings (.merge m))) := by
    simp only [settings, ho, hs]
  rw [launch, result_bind, hsettings]
  rfl

theorem result_of_invalid {e : SettingsError} (ho : Options.parse arguments = .ok o)
    (hs : Settings.ofOptions folder o = .error e) (he : ∀ m, e ≠ .merge m) :
    (launch host folder stamp arguments).result = .error .rejected := by
  rw [launch, result_bind]
  cases e with
  | merge m => exact absurd rfl (he m)
  | _ =>
    simp only [settings, ho, hs]
    rfl

/-- What the exit code `k` says of a run, and of what was stored of it. -/
structure Decided (s : Settings) (u : Setup) (verdict : Verdict) (k : Nat) : Prop where
  range : k = 0 ∨ k = 1
  success_iff : k = 0 ↔ u.program ≠ [] ∧
    u.world.clears u.world.reset u.program.motions = true ∧
    u.world.evaluate (u.world.arrival u.world.reset u.program.motions) = true
  unstored : s.exportDir.isTruthy = false → verdict.archive = none
  stored : s.exportDir.isTruthy = true → ∃ a r, verdict.archive = some a ∧
    a.store.names = [Store.runName 0] ∧ a.store.fetch (.nat 0) = .ok r ∧
    (r.success = .bool true ↔ k = 0) ∧ (r.outcome = .str Outcome.success.name ↔ k = 0)

theorem decided_of_ran {a : Option Archive}
    (hnone : s.exportDir.isTruthy = false → a = none)
    (hsome : s.exportDir.isTruthy = true → ∃ b, a = some b ∧
      Archive.ofRun folder stamp s u.world (u.world.record u.program) = .ok b) :
    Decided s u ⟨u.world.result u.program == .success, a⟩
      (if u.world.result u.program == .success then 0 else 1) := by
  have hzero : ((if u.world.result u.program == .success then 0 else 1) = 0) ↔
      u.world.result u.program = .success := by
    cases u.world.result u.program <;> decide
  refine ⟨?_, hzero.trans World.result_eq_success_iff, hnone, fun hdir => ?_⟩
  · split
    · exact .inl rfl
    · exact .inr rfl
  · obtain ⟨b, rfl, hb⟩ := hsome hdir
    obtain ⟨hnames, r, hr, -, hsuccess, houtcome⟩ := Archive.exists_of_ofRun hb
    refine ⟨b, r, rfl, hnames, hr, ?_, ?_⟩
    · rw [hzero, hsuccess, World.success_record_iff]
    · rw [hzero, houtcome, World.outcome_record_iff]

theorem exitCode_of_error {stage : Stage Verdict} {e : Ending} (h : stage.result = .error e) :
    stage.exitCode = if e = .rejected then some 2 else none := by
  rw [exitCode, h]
  cases e <;> rfl

theorem exitCode_of_ok {stage : Stage Verdict} {verdict : Verdict}
    (h : stage.result = .ok verdict) : stage.exitCode = some (if verdict.success then 0 else 1) := by
  rw [exitCode, h]

/-- With settings a launch is answered with two, or there is a verdict, or it has no answer. -/
theorem cases_of_settings (host : Host) (folder : Folder) (stamp : String) (s : Settings) :
    ((ofSettings host folder stamp s).result = .error .rejected ∧ s.Barred host folder) ∨
    (∃ u c v verdict k, u.FoundBy host folder s c v ∧ ¬ s.Barred host folder ∧
      (ofSettings host folder stamp s).result = .ok verdict ∧
      (ofSettings host folder stamp s).exitCode = some k ∧ Decided s u verdict k) ∨
    ∃ e, (ofSettings host folder stamp s).result = .error e ∧ e ≠ .rejected := by
  have hcourse := course_of_settings host folder stamp s
  cases hr : (ofSettings host folder stamp s).result with
  | ok verdict =>
    rw [hr] at hcourse
    cases hcourse with
    | @ran rank u a hrank hfound hover hnone hsome =>
      obtain ⟨c, v, hu⟩ := found_eq_ok_iff.mp hfound
      refine .inr (.inl ⟨u, c, v, _, _, hu, not_barred hu hover, rfl, exitCode_of_ok hr, ?_⟩)
      exact decided_of_ran hnone hsome
  | error e =>
    rw [hr] at hcourse
    cases hcourse with
    | unranked hrank => exact .inr (.inr ⟨_, rfl, nofun⟩)
    | @unfound rank e hrank hfound =>
      cases he : e.isAnswered with
      | true =>
        rw [unfound, if_pos he]
        exact .inl ⟨rfl, barred_of_missed (found_eq_error_iff.mp hfound) he⟩
      | false =>
        rw [unfound, if_neg (by rw [he]; exact Bool.false_ne_true)]
        exact .inr (.inr ⟨_, rfl, nofun⟩)
    | overBudget hrank hfound hover =>
      obtain ⟨c, v, hu⟩ := found_eq_ok_iff.mp hfound
      exact .inl ⟨rfl, barred_of_overBudget hu hover⟩
    | unshown hrank hfound hover hshown => exact .inr (.inr ⟨_, rfl, nofun⟩)
    | unslept hrank hfound hover hm hdelay hne => exact .inr (.inr ⟨_, rfl, hne⟩)
    | unstored hrank hfound hover hdir hstored => exact .inr (.inr ⟨_, rfl, nofun⟩)

theorem not_barred_of_settings (hs : Settings.ofOptions folder o = .ok s)
    (h : ¬ s.Barred host folder) : ¬ o.Barred host folder := by
  rintro (hs' | ⟨hs', hbarred⟩)
  · cases hs.symm.trans hs'
  · cases hs.symm.trans hs'
    exact h hbarred

/-- A launch that returns a code was rejected, or has run a program. -/
theorem cases_of_exitCode {k : Nat} (h : (launch host folder stamp arguments).exitCode = some k) :
    ∃ o, Options.parse arguments = .ok o ∧
      ((k = 2 ∧ o.Barred host folder ∧
          (launch host folder stamp arguments).result = .error .rejected) ∨
        (¬ o.Barred host folder ∧ ∃ s u c v verdict, Settings.ofOptions folder o = .ok s ∧
          u.FoundBy host folder s c v ∧ (launch host folder stamp arguments).result = .ok verdict ∧
          Decided s u verdict k)) := by
  have htwo (hr : (launch host folder stamp arguments).result = .error .rejected) : k = 2 := by
    rw [exitCode_of_error hr, if_pos rfl] at h
    exact (Option.some.inj h).symm
  have hcode {e : Ending} (he : e ≠ .rejected) :
      (launch host folder stamp arguments).result ≠ .error e := by
    intro hr
    rw [exitCode_of_error hr, if_neg he] at h
    cases h
  cases ho : Options.parse arguments with
  | error stop =>
    refine absurd ?_ (hcode (e := .stopped stop) nofun)
    rw [launch, result_bind, settings, ho]
    rfl
  | ok o =>
    refine ⟨o, rfl, ?_⟩
    cases hs : Settings.ofOptions folder o with
    | error e =>
      by_cases he : ∃ m, e = .merge m
      · obtain ⟨m, rfl⟩ := he
        exact absurd (result_of_merge ho hs) (hcode nofun)
      · have hr : (launch host folder stamp arguments).result = .error .rejected :=
          result_of_invalid ho hs fun m hm => he ⟨m, hm⟩
        exact .inl ⟨htwo hr, .settings hs, hr⟩
    | ok s =>
      have hlaunch : launch host folder stamp arguments = ofSettings host folder stamp s :=
        launch_of_settings ho hs
      rcases cases_of_settings host folder stamp s with
        ⟨hr, hbarred⟩ | ⟨u, c, v, verdict, l, hu, hbarred, hr, hl, hdecided⟩ | ⟨e, hr, hne⟩
      · rw [← hlaunch] at hr
        exact .inl ⟨htwo hr, .setup hs hbarred, hr⟩
      · rw [← hlaunch] at hr hl
        cases Option.some.inj (h.symm.trans hl)
        exact .inr ⟨not_barred_of_settings hs hbarred, s, u, c, v, verdict, rfl, hu, hr, hdecided⟩
      · rw [← hlaunch] at hr
        exact absurd hr (hcode hne)

/-- A run that nothing stands in the way of, and that is not to be stored. -/
theorem exitCode_of_found {rank : Nat} (ho : Options.parse arguments = .ok o)
    (hs : Settings.ofOptions folder o = .ok s) (hrank : Verbosity.ofJson s.logLevel = .ok rank)
    (hu : found host folder s = .ok u) (hbudget : isOverBudget s u = false)
    (hshown : host.Shows s u)
    (hslept : ∀ m ∈ u.world.asked u.program, host.clock (s.pacing.delay m) = .elapsed)
    (hdir : s.exportDir.isTruthy = false) : (launch host folder stamp arguments).exitCode =
      some (if u.world.result u.program == .success then 0 else 1) := by
  have hr : (ofSettings host folder stamp s).result =
      .ok ⟨u.world.result u.program == .success, none⟩ := by
    rw [result_of_slept hrank hu hbudget hshown hslept, hdir]
    rfl
  rw [launch_of_settings ho hs, exitCode_of_ok hr]

/-! ## A launch in a corridor -/

/-- A folder with a catalog, a program and settings. -/
def desk (catalog program config : Json) : Folder where
  files := [(Path.ofText "catalog.json", catalog.render),
    (Path.ofText "program.json", program.render), (Path.ofText "config.json", config.render)]
  folders := []

theorem readJson_catalog {catalog program config : Json}
    (h : Json.parse? catalog.render = some catalog) :
    (desk catalog program config).readJson (.str "catalog.json") = .ok catalog :=
  Folder.readJson_of_file (by decide) (by decide) rfl rfl rfl h

theorem readJson_program {catalog program config : Json}
    (h : Json.parse? program.render = some program) :
    (desk catalog program config).readJson (.str "program.json") = .ok program :=
  Folder.readJson_of_file (by decide) (by decide) rfl rfl rfl h

/-- All that a host may refuse. -/
def strictest : Host where
  sleeps := true
  refusesNaN := true
  strictConsole := true
  strictChecker := true

/-- Three cells in a row, and no room for a second block. -/
def hall : Challenge where
  id := "hall"
  title := ""
  description := ""
  difficulty := "easy"
  maxBlocks := some 1
  rows := 1
  cols := 3
  obstacles := []
  goal := some (0, 2)
  stars := []
  start := (0, 0)
  facing := .right

def hallCatalog : Json :=
  .obj [("challenges", .arr [.obj [("id", .str "hall"), ("maxBlocks", .int 1),
    ("grid", .obj [("rows", .int 1), ("cols", .int 3)]),
    ("goal", .obj [("r", .int 0), ("c", .int 2)]),
    ("start", .obj [("r", .int 0), ("c", .int 0)])]])]

def twoStepsForward : Json := .arr [.obj [("cmd", .str "move"), ("value", .int 2)]]

def hallSetup : Setup where
  challenge := hall
  world := { Interpreter.corridor with challengeId := .str "hall" }
  program := [.act (.move 2)]

theorem world_hall : hall.world = .ok hallSetup.world := by
  have hplace : World.place hallSetup.world.layout = .ok hallSetup.world :=
    World.place_of_ascending rfl rfl
  have hsides : ¬ (hall.layout.rows ≤ 0 ∨ hall.layout.cols ≤ 0) := by decide
  rw [Challenge.world, World.build, if_neg hsides]
  exact hplace

theorem ofTree_twoStepsForward :
    Program.ofTree (.ofJson twoStepsForward) = .ok hallSetup.program := by
  have hmove : Tree.read (.obj [("cmd", .str "move"), ("value", .int 2)]) = .ok (.act (.move 2)) :=
    Tree.read_move (by decide)
  rw [Program.ofTree_of_nodes rfl]
  show Tree.readAll [.obj [("cmd", .str "move"), ("value", .int 2)]] = _
  rw [Tree.readAll_of_ok hmove, Tree.readAll_nil]
  rfl

def hallWords : List String := ["catalog.json", "hall", "program.json"]

def hallOptions : Options :=
  { Options.none with
    catalog := .str "catalog.json", challenge := .str "hall", program := .str "program.json" }

def hallSettings : Settings where
  catalogPath := "catalog.json"
  challengeId := .str "hall"
  programPath := "program.json"
  pacing := .default
  exportDir := .null
  runName := .str "run"
  logToConsole := .bool true
  logLevel := .str "WARNING"
  enforceBlockLimit := .bool true

theorem parse_hallWords : Options.parse hallWords = .ok hallOptions := rfl

theorem ofOptions_hall (folder : Folder) :
    Settings.ofOptions folder hallOptions = .ok hallSettings := rfl

set_option maxRecDepth 4000 in
theorem parse_hallCatalog : Json.parse? hallCatalog.render = some hallCatalog := by rfl

theorem parse_twoStepsForward : Json.parse? twoStepsForward.render = some twoStepsForward := rfl

theorem foundBy_hall (host : Host) (config : Json) :
    hallSetup.FoundBy host (desk hallCatalog twoStepsForward config) hallSettings ⟨[hall]⟩
      twoStepsForward where
  catalog := by
    rw [hallSettings, Catalog.read, readJson_catalog parse_hallCatalog]
    rfl
  challenge := rfl
  world := world_hall
  document := readJson_program parse_twoStepsForward
  program := ofTree_twoStepsForward

theorem found_hall (host : Host) (config : Json) :
    found host (desk hallCatalog twoStepsForward config) hallSettings = .ok hallSetup :=
  found_eq_ok_iff.mpr ⟨_, _, foundBy_hall host config⟩

/-- Settings in a file do not matter unless they are asked for. -/
theorem exitCode_hall (host : Host) (config : Json) :
    (launch host (desk hallCatalog twoStepsForward config) "now" hallWords).exitCode = some 0 := by
  have hrank : Verbosity.ofJson hallSettings.logLevel = .ok Verbosity.initial := rfl
  have hbudget : isOverBudget hallSettings hallSetup = false := by
    have hblocks : countBlocks hallSetup.program = 1 := by
      rw [countBlocks_eq]
      rfl
    rw [isOverBudget, hblocks]
    rfl
  have hshown : host.Shows hallSettings hallSetup := fun _ _ => ⟨rfl, rfl⟩
  have hslept (m : Motion) (_ : m ∈ hallSetup.world.asked hallSetup.program) :
      host.clock (hallSettings.pacing.delay m) = .elapsed := by
    cases m <;> exact host.clock_finite (by decide)
  have hsuccess : (hallSetup.world.result hallSetup.program == .success) = true := by decide
  rw [exitCode_of_found parse_hallWords (ofOptions_hall _) hrank (found_hall _ config) hbudget
    hshown hslept rfl, hsuccess]
  rfl

/-! ## Every exit code -/

/-- Everything that an exit code says. Two means that the options allow no run, and then none was
begun and nothing stored; otherwise the code is the verdict of the run, and of the stored one. -/
theorem exitCode_decides {k : Nat} (h : (launch host folder stamp arguments).exitCode = some k) :
    ∃ o, Options.parse arguments = .ok o ∧ (k = 2 ↔ o.Barred host folder) ∧
      (o.Barred host folder → (launch host folder stamp arguments).result = .error .rejected ∧
        (launch host folder stamp arguments).Notifies) ∧
      (¬ o.Barred host folder → ∃ s u c v verdict, Settings.ofOptions folder o = .ok s ∧
        u.FoundBy host folder s c v ∧ (launch host folder stamp arguments).result = .ok verdict ∧
        Decided s u verdict k) := by
  obtain ⟨o, ho, ⟨htwo, hbarred, hr⟩ | ⟨hbarred, hran⟩⟩ := cases_of_exitCode h
  · refine ⟨o, ho, iff_of_true htwo hbarred, fun _ => ⟨hr, notifies_of_rejected hr⟩, ?_⟩
    exact fun hno => absurd hbarred hno
  · refine ⟨o, ho, iff_of_false ?_ hbarred, fun hb => absurd hb hbarred, fun _ => hran⟩
    obtain ⟨s, u, c, v, verdict, -, -, -, hdecided⟩ := hran
    rintro rfl
    exact absurd hdecided.range (by decide)

theorem exitCode_decides_hall :
    (launch strictest (desk hallCatalog twoStepsForward .null) "now" hallWords).exitCode =
        some 0 ∧
      ¬ hallOptions.Barred strictest (desk hallCatalog twoStepsForward .null) ∧
      ∃ verdict, Decided hallSettings hallSetup verdict 0 ∧
        (launch strictest (desk hallCatalog twoStepsForward .null) "now" hallWords).result =
          .ok verdict := by
  have hzero : (launch strictest (desk hallCatalog twoStepsForward .null) "now"
      hallWords).exitCode = some 0 := exitCode_hall _ .null
  obtain ⟨o, ho, htwo, -, hran⟩ := exitCode_decides hzero
  cases parse_hallWords.symm.trans ho
  have hbarred : ¬ hallOptions.Barred strictest (desk hallCatalog twoStepsForward .null) :=
    fun h => absurd (htwo.mpr h) (by decide)
  obtain ⟨s, u, c, v, verdict, hs, hu, hr, hdecided⟩ := hran hbarred
  cases (ofOptions_hall _).symm.trans hs
  cases (found_hall _ .null).symm.trans (found_eq_ok_iff.mpr ⟨c, v, hu⟩)
  exact ⟨hzero, hbarred, verdict, hdecided, hr⟩

end Launch

end BlockGrid
