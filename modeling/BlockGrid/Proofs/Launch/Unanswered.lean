import BlockGrid.Proofs.Launch.ExitCode

/-!
# BlockGrid.Proofs.Launch.Unanswered

What a launch has no answer to.

* `Settings.ofOptions_merge_iff` — settings fail on the file that they are laid over just when it
  holds something that is no object.
* `read_unanswered_iff`, `find_unanswered_iff`, `unanswered_layout_iff` — what is not answered, gate
  by gate.
* `Settings.Unanswered`, `Options.Unanswered` — all of it, said of the contents.
* `fails_of_unanswered`, `unanswered_of_fails` — a launch with settings is without an answer just
  on these.
* `answered_unless_unanswered` — everything else has its exit code; `listDesk_unanswered`, settings
  that have none.
-/

namespace BlockGrid

namespace Settings

variable {folder : Folder} {o : Options} {entries : Entries}

/-! ## Settings over settings -/

theorem layer_eq_error_iff {v : Json} : (∃ m, v.layer = .error m) ↔ v.isObject = false := by
  cases v with
  | obj es => exact ⟨nofun, nofun⟩
  | _ => exact ⟨fun _ => rfl, fun _ => ⟨_, rfl⟩⟩

theorem withFile_merge_iff (entries : Entries) :
    (∃ m, withFile folder o.config entries = .error (.merge m)) ↔
      o.config.isTruthy = true ∧ ∃ v, folder.readJson o.config = .ok v ∧ v.isObject = false := by
  constructor
  · rintro ⟨m, h⟩
    unfold withFile at h
    split at h
    · rename_i hgiven
      rcases cases_of_bind_eq_error h with h | ⟨v, hv, h⟩
      · obtain ⟨e, -, he⟩ := exists_of_mapError_eq_error h
        cases he
      rcases cases_of_bind_eq_error h with h | ⟨es, -, h⟩
      · obtain ⟨e, he, -⟩ := exists_of_mapError_eq_error h
        exact ⟨hgiven, v, eq_ok_of_mapError hv, layer_eq_error_iff.mp ⟨e, he⟩⟩
      · cases h
    · cases h
  · rintro ⟨hgiven, v, hv, hobject⟩
    obtain ⟨m, hm⟩ := layer_eq_error_iff.mpr hobject
    refine ⟨m, ?_⟩
    rw [withFile, if_pos hgiven, hv]
    show (do let given ← v.layer.mapError SettingsError.merge; _) = _
    rw [hm]
    rfl

theorem putDelay_ne_merge {name : String} {delay pacing : Json} {m : MergeError} :
    putDelay name delay pacing ≠ .error (.merge m) := by
  unfold putDelay
  split
  · exact nofun
  · split <;> exact nofun

theorem withOptions_ne_merge {m : MergeError} : withOptions o entries ≠ .error (.merge m) := by
  intro h
  rcases cases_of_bind_eq_error h with h | ⟨_, -, h⟩
  · exact putDelay_ne_merge h
  rcases cases_of_bind_eq_error h with h | ⟨_, -, h⟩
  · exact putDelay_ne_merge h
  · cases h

theorem isNegative_ne_merge {delay : Json} {m : MergeError} :
    isNegative delay ≠ .error (.merge m) := by
  unfold isNegative
  split <;> exact nofun

theorem checkPacing_ne_merge {p : Pacing} {m : MergeError} :
    checkPacing p ≠ .error (.merge m) := by
  intro h
  rcases cases_of_bind_eq_error h with h | ⟨_ | _, -, h⟩
  · exact isNegative_ne_merge h
  · rcases cases_of_bind_eq_error h with h | ⟨_ | _, -, h⟩
    · exact isNegative_ne_merge h
    · cases h
    · cases h
  · cases h

theorem ofEntries_ne_merge {m : MergeError} : ofEntries entries ≠ .error (.merge m) := by
  intro h
  rcases cases_of_bind_eq_error h with h | ⟨_, -, h⟩
  · obtain ⟨e, -, he⟩ := exists_of_mapError_eq_error h
    cases he
  rcases cases_of_bind_eq_error h with h | ⟨_, -, h⟩
  · obtain ⟨e, -, he⟩ := exists_of_mapError_eq_error h
    cases he
  rcases cases_of_bind_eq_error h with h | ⟨_, -, h⟩
  · exact checkPacing_ne_merge h
  · cases h

theorem ofOptions_merge_iff : (∃ m, ofOptions folder o = .error (.merge m)) ↔
    o.config.isTruthy = true ∧ ∃ v, folder.readJson o.config = .ok v ∧ v.isObject = false := by
  rw [← withFile_merge_iff defaults]
  constructor
  · rintro ⟨m, h⟩
    rcases cases_of_bind_eq_error h with h | ⟨_, -, h⟩
    · exact ⟨m, h⟩
    rcases cases_of_bind_eq_error h with h | ⟨_, -, h⟩
    · exact absurd h withOptions_ne_merge
    · exact absurd h ofEntries_ne_merge
  · rintro ⟨m, h⟩
    refine ⟨m, ?_⟩
    rw [ofOptions, h]
    rfl

end Settings

/-! ## Gate by gate -/

/-- The names of levels that stand for something else. -/
def Verbosity.isReserved (name : String) : Prop := name = formatName ∨ name = stylesName

theorem Verbosity.ofJson_eq_error_iff {v : Json} : (∃ e, ofJson v = .error e) ↔
    v.text? = none ∨ ∃ t, v = .str t ∧ isReserved (capitals t) := by
  cases v with
  | str t =>
    simp only [Json.text?, reduceCtorEq, false_or, Json.str.injEq, exists_eq_left', ofJson,
      isReserved]
    split
    · exact iff_of_true ⟨_, rfl⟩ (.inl ‹_›)
    · split
      · exact iff_of_true ⟨_, rfl⟩ (.inr ‹_›)
      · refine iff_of_false ?_ (by rintro (h | h) <;> contradiction)
        rintro ⟨_, h⟩
        cases h
  | torn s half rest =>
    constructor
    · rintro ⟨_, h⟩
      cases h
    · rintro (h | ⟨t, h, -⟩) <;> cases h
  | _ => exact iff_of_true ⟨_, rfl⟩ (.inl rfl)

theorem SetupError.unanswered_document_iff {e : DocumentError} :
    (SetupError.document e).isAnswered = false ↔ e = .file .holdsZero := by
  cases e with
  | notJson => exact ⟨nofun, nofun⟩
  | file e => cases e <;> simp [isAnswered]

theorem Catalog.read_unanswered_iff {strict : Bool} {folder : Folder} {path : String} :
    (∃ e, Catalog.read strict folder path = .error e ∧ e.isAnswered = false) ↔
      '\x00' ∈ path.toList := by
  constructor
  · rintro ⟨e, h, he⟩
    rcases cases_of_bind_eq_error h with h | ⟨v, -, h⟩
    · obtain ⟨d, hd, rfl⟩ := exists_of_mapError_eq_error h
      rw [SetupError.unanswered_document_iff] at he
      subst he
      exact Folder.readJson_holdsZero_iff.mp hd
    · obtain ⟨d, -, rfl⟩ := exists_of_mapError_eq_error h
      cases he
  · intro h
    refine ⟨.document (.file .holdsZero), ?_, rfl⟩
    rw [Catalog.read, Folder.readJson_holdsZero_iff.mpr h]
    rfl

theorem Catalog.find_unanswered_iff {c : Catalog} {v : Json} :
    (∃ e, c.find v = .error e ∧ e.isAnswered = false) ↔ v.hasHash = false := by
  cases v with
  | str _ | torn _ _ _ =>
    refine ⟨?_, nofun⟩
    rintro ⟨e, h, he⟩
    obtain ⟨u, -, rfl⟩ := exists_of_mapError_eq_error h
    cases he
  | arr items => exact iff_of_true ⟨_, rfl, rfl⟩ rfl
  | obj entries => exact iff_of_true ⟨_, rfl, rfl⟩ rfl
  | _ =>
    refine ⟨?_, nofun⟩
    rintro ⟨e, h, he⟩
    cases h
    cases he

theorem SetupError.unanswered_layout_iff {e : LayoutError} :
    (SetupError.layout e).isAnswered = false ↔ e.isTooLarge = true := by
  simp [isAnswered]

/-! ## The whole launch -/

/-- What a launch has no answer to, once it has its settings: a level that is no level, a path or an
id that is none, a board or a numeral that cannot be looked at, a challenge whose name cannot be put
out, a delay of its run that is never over, and an archive that cannot be kept. -/
inductive Settings.Unanswered (host : Host) (folder : Folder) (stamp : String) (s : Settings) :
    Prop
  | level : (s.logLevel.text? = none ∨
      ∃ t, s.logLevel = .str t ∧ Verbosity.isReserved (Verbosity.capitals t)) →
      Unanswered host folder stamp s
  | catalogPath : '\x00' ∈ s.catalogPath.toList → Unanswered host folder stamp s
  | id {c : Catalog} : Catalog.read host.strictChecker folder s.catalogPath = .ok c →
      s.challengeId.hasHash = false → Unanswered host folder stamp s
  | world {c : Catalog} {d : Challenge} {e : LayoutError} :
      Catalog.read host.strictChecker folder s.catalogPath = .ok c → c.find s.challengeId = .ok d →
      d.world = .error e → e.isTooLarge = true → Unanswered host folder stamp s
  | programPath {c : Catalog} {d : Challenge} {w : World} :
      Catalog.read host.strictChecker folder s.catalogPath = .ok c →
      c.find s.challengeId = .ok d → d.world = .ok w → '\x00' ∈ s.programPath.toList →
      Unanswered host folder stamp s
  | numeral {c : Catalog} {d : Challenge} {w : World} {v : Json} {nodes : List Tree} {t : Tree}
      {text : String} : Catalog.read host.strictChecker folder s.catalogPath = .ok c →
      c.find s.challengeId = .ok d → d.world = .ok w →
      folder.readJson (.str s.programPath) = .ok v → (Tree.ofJson v).nodes? = some nodes →
      Tree.Reached nodes t → Tree.Stumbles t text → Unanswered host folder stamp s
  | heading {u : Setup} {c : Catalog} {v : Json} : u.FoundBy host folder s c v →
      Launch.isOverBudget s u = false → host.strictConsole = true →
      s.logToConsole.isTruthy = true →
      u.challenge.id.isTorn = true ∨ u.challenge.title.isTorn = true →
      Unanswered host folder stamp s
  | delay {u : Setup} {c : Catalog} {v : Json} {m : Motion} :
      u.FoundBy host folder s c v → Launch.isOverBudget s u = false →
      host.sleeps = true → m ∈ u.world.asked u.program →
      (s.pacing.delay m).Unending host.refusesNaN → Unanswered host folder stamp s
  | archive {u : Setup} {c : Catalog} {v : Json} {e : ArchiveError} : u.FoundBy host folder s c v →
      Launch.isOverBudget s u = false → s.exportDir.isTruthy = true →
      Archive.ofRun folder stamp s u.world (u.world.record u.program) = .error e →
      Unanswered host folder stamp s

/-- What a launch has no answer to: settings in a file that are no object, and what follows from
settings. -/
inductive Options.Unanswered (host : Host) (folder : Folder) (stamp : String) (o : Options) : Prop
  | config {v : Json} : o.config.isTruthy = true → folder.readJson o.config = .ok v →
      v.isObject = false → Unanswered host folder stamp o
  | setup {s : Settings} : Settings.ofOptions folder o = .ok s → s.Unanswered host folder stamp →
      Unanswered host folder stamp o

namespace Launch

open Stage

variable {host : Host} {folder : Folder} {stamp : String} {arguments : List String}
  {o : Options} {s : Settings} {u : Setup}

theorem unanswered_of_missed {e : SetupError} (h : Setup.MissedBy host folder s e)
    (he : e.isAnswered = false) : s.Unanswered host folder stamp := by
  cases h with
  | catalog hc => exact .catalogPath (Catalog.read_unanswered_iff.mp ⟨e, hc, he⟩)
  | challenge hc hd => exact .id hc (Catalog.find_unanswered_iff.mp ⟨e, hd, he⟩)
  | world hc hd hw => exact .world hc hd hw (SetupError.unanswered_layout_iff.mp he)
  | document hc hd hw hv =>
    rw [SetupError.unanswered_document_iff] at he
    subst he
    exact .programPath hc hd hw (Folder.readJson_holdsZero_iff.mp hv)
  | @program c d w v e hc hd hw hv hp =>
    cases e with
    | notSequence kind => cases he
    | badNumeral text =>
      obtain ⟨nodes, t, text, hnodes, ht, hst⟩ := Program.badNumeral_iff.mp ⟨text, hp⟩
      exact .numeral hc hd hw hv hnodes ht hst

/-- A launch without an answer: it neither comes to a verdict nor is rejected. -/
def Fails (host : Host) (folder : Folder) (stamp : String) (s : Settings) : Prop :=
  ∃ l, (ofSettings host folder stamp s).result = .error l ∧ l ≠ .rejected

/-- A level that is no level leaves none either, so that later gates may take it as passed. -/
theorem fails_of_ranked
    (h : ∀ rank, Verbosity.ofJson s.logLevel = .ok rank → Fails host folder stamp s) :
    Fails host folder stamp s := by
  cases hrank : Verbosity.ofJson s.logLevel with
  | error l => exact ⟨_, result_of_unranked hrank, nofun⟩
  | ok rank => exact h rank hrank

theorem fails_of_missed {e : SetupError} (h : Setup.MissedBy host folder s e)
    (he : e.isAnswered = false) : Fails host folder stamp s := by
  refine fails_of_ranked fun rank hrank => ⟨.failed (.setup e), ?_, nofun⟩
  rw [result_of_unfound hrank (found_eq_error_iff.mpr h), unfound, he]
  rfl

theorem fails_of_unshown (hu : found host folder s = .ok u) (hover : isOverBudget s u = false)
    (hshown : ¬ host.Shows s u) : Fails host folder stamp s := by
  refine fails_of_ranked fun rank hrank => ?_
  obtain ⟨e, he⟩ := result_of_unshown hrank hu hover hshown
  exact ⟨_, he, nofun⟩

theorem fails_of_unslept {m : Motion} (hu : found host folder s = .ok u)
    (hover : isOverBudget s u = false) (hm : m ∈ u.world.asked u.program)
    (hdelay : host.clock (s.pacing.delay m) ≠ .elapsed) : Fails host folder stamp s := by
  refine fails_of_ranked fun rank hrank => ?_
  obtain ⟨-, -, -, l, hl, hne⟩ := result_of_unslept hrank hu hover hm hdelay
  exact ⟨l, hl, hne⟩

/-- A run that is not shown or not slept through does not come to its archive, and has no answer
either. -/
theorem fails_of_unstored {e : ArchiveError} (hu : found host folder s = .ok u)
    (hover : isOverBudget s u = false) (hdir : s.exportDir.isTruthy = true)
    (ha : Archive.ofRun folder stamp s u.world (u.world.record u.program) = .error e) :
    Fails host folder stamp s := by
  by_cases hshown : host.Shows s u
  case neg => exact fails_of_unshown hu hover hshown
  by_cases hslept : ∀ m ∈ u.world.asked u.program, host.clock (s.pacing.delay m) = .elapsed
  case neg =>
    simp only [not_forall] at hslept
    obtain ⟨m, hm, hdelay⟩ := hslept
    exact fails_of_unslept hu hover hm hdelay
  refine fails_of_ranked fun rank hrank => ⟨.failed (.archive e), ?_, nofun⟩
  rw [result_of_slept hrank hu hover hshown hslept, hdir, ha]
  rfl

theorem fails_of_unanswered (h : s.Unanswered host folder stamp) : Fails host folder stamp s := by
  cases h with
  | level hlevel =>
    obtain ⟨e, he⟩ := Verbosity.ofJson_eq_error_iff.mpr hlevel
    exact ⟨_, result_of_unranked he, nofun⟩
  | catalogPath hzero =>
    obtain ⟨e, hc, he⟩ := Catalog.read_unanswered_iff.mpr hzero
    exact fails_of_missed (.catalog hc) he
  | id hc hhash =>
    obtain ⟨e, hd, he⟩ := Catalog.find_unanswered_iff.mpr hhash
    exact fails_of_missed (.challenge hc hd) he
  | world hc hd hw he =>
    exact fails_of_missed (.world hc hd hw) (SetupError.unanswered_layout_iff.mpr he)
  | programPath hc hd hw hzero =>
    exact fails_of_missed (.document hc hd hw (Folder.readJson_holdsZero_iff.mpr hzero))
      (SetupError.unanswered_document_iff.mpr rfl)
  | numeral hc hd hw hv hnodes ht hst =>
    obtain ⟨text, hp⟩ := Program.badNumeral_iff.mpr ⟨_, _, _, hnodes, ht, hst⟩
    exact fails_of_missed (.program hc hd hw hv hp) rfl
  | heading hu hover hconsole hverbose htorn =>
    refine fails_of_unshown (found_eq_ok_iff.mpr ⟨_, _, hu⟩) hover fun hshown => ?_
    simp [hshown hconsole hverbose] at htorn
  | delay hu hover hsleeps hm hdelay =>
    exact fails_of_unslept (found_eq_ok_iff.mpr ⟨_, _, hu⟩) hover hm
      (Host.clock_ne_elapsed_iff.mpr ⟨hsleeps, hdelay⟩)
  | archive hu hover hdir ha =>
    exact fails_of_unstored (found_eq_ok_iff.mpr ⟨_, _, hu⟩) hover hdir ha

theorem unanswered_of_fails (h : Fails host folder stamp s) : s.Unanswered host folder stamp := by
  obtain ⟨l, h, hl⟩ := h
  have hcourse := course_of_settings host folder stamp s
  generalize hr : (ofSettings host folder stamp s).result = r at hcourse
  rw [h] at hr
  cases hcourse with
  | unranked hrank => exact .level (Verbosity.ofJson_eq_error_iff.mp ⟨_, hrank⟩)
  | @unfound rank e hrank hfound =>
    cases he : e.isAnswered with
    | true =>
      rw [unfound, if_pos he] at hr
      cases hr
      exact absurd rfl hl
    | false => exact unanswered_of_missed (found_eq_error_iff.mp hfound) he
  | overBudget hrank hfound hover =>
    cases hr
    exact absurd rfl hl
  | unshown hrank hfound hover hshown =>
    obtain ⟨c, v, hu⟩ := found_eq_ok_iff.mp hfound
    simp only [Host.Shows, Classical.not_imp, not_and_or, Bool.not_eq_false] at hshown
    obtain ⟨hconsole, hverbose, htorn⟩ := hshown
    exact .heading hu hover hconsole hverbose htorn
  | unslept hrank hfound hover hm hdelay hne =>
    obtain ⟨c, v, hu⟩ := found_eq_ok_iff.mp hfound
    obtain ⟨hsleeps, hunending⟩ := Host.clock_ne_elapsed_iff.mp hdelay
    exact .delay hu hover hsleeps hm hunending
  | unstored hrank hfound hover hdir ha =>
    obtain ⟨c, v, hu⟩ := found_eq_ok_iff.mp hfound
    exact .archive hu hover hdir ha
  | ran hrank hfound hover hnone hsome => cases hr

theorem exitCode_of_unanswered {stage : Stage Verdict} {l : Ending}
    (h : stage.result = .error l) (hl : l ≠ .rejected) : stage.exitCode = none := by
  rw [exitCode_of_error h, if_neg hl]

/-- A launch gives no code just when it comes to what it has no answer to. -/
theorem exitCode_eq_none_iff (ho : Options.parse arguments = .ok o) :
    (launch host folder stamp arguments).exitCode = none ↔ o.Unanswered host folder stamp := by
  cases hs : Settings.ofOptions folder o with
  | error e =>
    by_cases he : ∃ m, e = .merge m
    · obtain ⟨m, rfl⟩ := he
      obtain ⟨hgiven, v, hv, hobject⟩ := Settings.ofOptions_merge_iff.mp ⟨m, hs⟩
      exact iff_of_true (exitCode_of_unanswered (result_of_merge ho hs) nofun)
        (.config hgiven hv hobject)
    · have hr : (launch host folder stamp arguments).result = .error .rejected :=
        result_of_invalid ho hs fun m hm => he ⟨m, hm⟩
      rw [exitCode_of_error hr, if_pos rfl]
      refine iff_of_false nofun ?_
      rintro (⟨hgiven, hv, hobject⟩ | ⟨hs', -⟩)
      · obtain ⟨m, hm⟩ := Settings.ofOptions_merge_iff.mpr ⟨hgiven, _, hv, hobject⟩
        exact he ⟨m, Except.error.inj (hs.symm.trans hm)⟩
      · cases hs.symm.trans hs'
  | ok s =>
    rw [launch_of_settings ho hs]
    constructor
    · intro h
      rcases cases_of_settings host folder stamp s with
        ⟨hr, -⟩ | ⟨u, c, v, verdict, k, -, -, -, hk, -⟩ | ⟨l, hr, hl⟩
      · rw [exitCode_of_error hr, if_pos rfl] at h
        cases h
      · cases h.symm.trans hk
      · exact .setup hs (unanswered_of_fails ⟨l, hr, hl⟩)
    · rintro (⟨hgiven, hv, hobject⟩ | ⟨hs', h⟩)
      · obtain ⟨m, hm⟩ := Settings.ofOptions_merge_iff.mpr ⟨hgiven, _, hv, hobject⟩
        cases hs.symm.trans hm
      · cases hs.symm.trans hs'
        obtain ⟨l, hr, hl⟩ := fails_of_unanswered h
        exact exitCode_of_unanswered hr hl

/-- Everything else is answered: by two if no run is allowed, and by the verdict of the run if one
is. -/
theorem answered_unless_unanswered (ho : Options.parse arguments = .ok o) :
    ((launch host folder stamp arguments).exitCode = none ↔ o.Unanswered host folder stamp) ∧
      (¬ o.Unanswered host folder stamp →
        (o.Barred host folder ∧ (launch host folder stamp arguments).exitCode = some 2) ∨
        (¬ o.Barred host folder ∧ ((launch host folder stamp arguments).exitCode = some 0 ∨
          (launch host folder stamp arguments).exitCode = some 1))) := by
  have hnone : (launch host folder stamp arguments).exitCode = none ↔
      o.Unanswered host folder stamp := exitCode_eq_none_iff ho
  refine ⟨hnone, fun hanswered => ?_⟩
  cases hk : (launch host folder stamp arguments).exitCode with
  | none => exact absurd (hnone.mp hk) hanswered
  | some k =>
    obtain ⟨o', ho', hcases⟩ := cases_of_exitCode hk
    cases ho.symm.trans ho'
    rcases hcases with ⟨rfl, hbarred, -⟩ | ⟨hbarred, s, u, c, v, verdict, -, -, -, hdecided⟩
    · exact .inl ⟨hbarred, rfl⟩
    · refine .inr ⟨hbarred, ?_⟩
      rcases hdecided.range with rfl | rfl
      · exact .inl rfl
      · exact .inr rfl

theorem answered_unless_unanswered_hall :
    Options.parse hallWords = .ok hallOptions ∧
      ¬ hallOptions.Unanswered strictest (desk hallCatalog twoStepsForward .null) "now" ∧
      ¬ hallOptions.Barred strictest (desk hallCatalog twoStepsForward .null) := by
  have hzero := exitCode_hall strictest .null
  obtain ⟨hnone, hanswered⟩ := answered_unless_unanswered parse_hallWords
  have hno : ¬ hallOptions.Unanswered strictest (desk hallCatalog twoStepsForward .null) "now" := by
    intro h
    cases hzero.symm.trans (hnone.mpr h)
  refine ⟨parse_hallWords, hno, fun hbarred => ?_⟩
  rcases hanswered hno with ⟨-, htwo⟩ | ⟨hbarred', -⟩
  · cases hzero.symm.trans htwo
  · exact hbarred' hbarred

/-- Settings that are a list, next to a catalog and a program that can be used. -/
def listDesk : Folder := desk hallCatalog twoStepsForward (.arr [])

def configWords : List String := hallWords ++ ["--config", "config.json"]

/-- Without the settings the program runs and succeeds; with them there is no answer at all. -/
theorem listDesk_unanswered :
    listDesk.readJson (.str "config.json") = .ok (.arr []) ∧
      (launch strictest listDesk "now" hallWords).exitCode = some 0 ∧
      (launch strictest listDesk "now" configWords).exitCode = none := by
  have hread : listDesk.readJson (.str "config.json") = .ok (.arr []) :=
    Folder.readJson_of_file (by decide) (by decide) rfl rfl rfl rfl
  have hparse : Options.parse configWords =
      .ok { hallOptions with config := .str "config.json" } := rfl
  exact ⟨hread, exitCode_hall _ (.arr []),
    (exitCode_eq_none_iff hparse).mpr (.config rfl hread rfl)⟩

end Launch

end BlockGrid
