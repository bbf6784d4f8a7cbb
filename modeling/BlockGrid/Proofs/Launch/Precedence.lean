import BlockGrid.Proofs.Json.Overlay
import BlockGrid.Proofs.Launch.Options
import BlockGrid.Proofs.Launch.Unanswered
import BlockGrid.Proofs.Number.Value

/-!
# BlockGrid.Proofs.Launch.Precedence

Which of three values a setting takes: that of the command line, that of the settings file, or the
built-in one.

* `Options.Given`          — the entries of the settings file, none where no file was named.
* `Options.Sound`          — what is asked of the file and of the delays.
* `Settings.Follows`       — every setting has the first of the three values that there is.
* `SettingsError.blame`    — what an error is about.
* `withOptions_eq`, `ofEntries_settled_eq_ok_iff` — the two halves of the way to the settings.
* `ofOptions_eq_ok_iff`    — settings are returned just for what is sound.
* `settings_by_precedence` — the same for every command line, with what its errors are about.
-/

namespace BlockGrid

open Entries (names)

/-- A delay that settings may have: a number that is not below zero. -/
def Json.IsDelay (v : Json) : Prop := ∃ x, v.number? = some x ∧ ¬ x.IsNegative

namespace Options

variable {folder : Folder} {o : Options} {given : Entries}

/-- The entries of the settings file. -/
def Given (folder : Folder) (o : Options) (given : Entries) : Prop :=
  match o.config.wording? with
  | .none => given = []
  | .some path => folder.readJson (.str path) = .ok (.obj given)

/-- The flag comes first, then no waiting at all if that was asked for, then the file. -/
def delay (o : Options) (given : Entries) (flag : Json) (name : String) (usual : Json) : Json :=
  if flag.isNull then
    if o.fast.isTruthy then Pacing.tenths 0
    else ((given.get? "pacing").bind (Json.get? name)).getD usual
  else flag

def moveDelayOver (o : Options) (given : Entries) : Json :=
  o.delay given o.moveDelay "move_delay" (Pacing.tenths 4)

def turnDelayOver (o : Options) (given : Entries) : Json :=
  o.delay given o.turnDelay "turn_delay" (Pacing.tenths 2)

structure Sound (o : Options) (given : Entries) : Prop where
  known : ∀ name ∈ names given, name ∈ Settings.defaults.map Prod.fst
  pacing : o.fast.isTruthy = false → ∀ v, given.get? "pacing" = some v →
    ∃ entries, v = .obj entries ∧ ∀ name ∈ names entries, name ∈ Pacing.names
  moveDelay : (o.moveDelayOver given).IsDelay
  turnDelay : (o.turnDelayOver given).IsDelay

end Options

/-- The settings have the values of the options where those were given, else those of the entries,
else the built-in ones. -/
structure Settings.Follows (s : Settings) (o : Options) (given : Entries) : Prop where
  catalogPath : s.catalogPath = o.catalog.spoken
  challengeId : s.challengeId = o.challenge
  programPath : s.programPath = o.program.spoken
  moveDelay : s.pacing.moveDelay = o.moveDelayOver given
  turnDelay : s.pacing.turnDelay = o.turnDelayOver given
  exportDir : s.exportDir =
    (o.exportDir.wording?.map .str).getD ((given.get? "export_dir").getD .null)
  runName : s.runName = (given.get? "run_name").getD (.str "run")
  logToConsole : s.logToConsole =
    if o.quiet.isTruthy then .bool false else (given.get? "log_to_console").getD (.bool true)
  logLevel : s.logLevel =
    (o.logLevel.wording?.map .str).getD ((given.get? "log_level").getD (.str "WARNING"))
  enforceBlockLimit : s.enforceBlockLimit =
    if o.ignoreBlockLimit.isTruthy then .bool false
    else (given.get? "enforce_block_limit").getD (.bool true)

/-! ## What errors are about -/

/-- The file system, the kind of a value, the value itself, or a member that it should have. -/
inductive Blame where
  | system
  | kind
  | value
  | member
  deriving DecidableEq

def FileError.blame : FileError → Blame
  | .holdsZero => .value
  | .negativeHandle => .value
  | .notPath _ => .kind
  | _ => .system

def DocumentError.blame : DocumentError → Blame
  | .file e => e.blame
  | .notJson => .value

def PacingError.blame : PacingError → Blame
  | .notObject _ => .kind
  | .name _ => .kind
  | .noDelay _ => .value

def SettingsError.blame : SettingsError → Blame
  | .document e => e.blame
  | .merge (.noAttribute _ _) => .member
  | .merge .indexedByName => .kind
  | .notAssignable _ => .kind
  | .indexedByName => .kind
  | .pacing e => e.blame
  | .name _ => .kind
  | .delayNotOrdered _ => .kind
  | .negativeDelay => .value

theorem SettingsError.blame_ne_member {e : SettingsError} (h : ∀ m, e ≠ .merge m) :
    e.blame ≠ .member := by
  cases e with
  | document d =>
    cases d with
    | notJson => exact nofun
    | file e => cases e <;> exact nofun
  | merge m => exact absurd rfl (h m)
  | pacing e => cases e <;> exact nofun
  | _ => exact nofun

/-! ## Names -/

theorem Entries.checkNames_eq_ok_iff {taken : String} {known : List String}
    (htaken : taken ∉ known) (es : Entries) :
    es.checkNames taken known = .ok () ↔ ∀ name ∈ names es, name ∈ known := by
  induction es with
  | nil => exact iff_of_true rfl nofun
  | cons e es ih =>
    obtain ⟨name, v⟩ := e
    rw [checkNames, names_cons, List.forall_mem_cons]
    split
    · rename_i heq
      exact iff_of_false nofun fun h => htaken (heq ▸ h.1)
    · split
      · rename_i hknown
        rw [ih, and_iff_right (List.contains_iff_mem.mp hknown)]
      · rename_i hknown
        exact iff_of_false nofun fun h => hknown (List.contains_iff_mem.mpr h.1)

/-! ## Pacing -/

namespace Pacing

variable {es : Entries} {p : Pacing} {v : Json}

/-- The delays of entries, the built-in ones where there are none. -/
def ofMembers (es : Entries) : Pacing :=
  ⟨(es.get? "move_delay").getD default.moveDelay, (es.get? "turn_delay").getD default.turnDelay⟩

theorem ofJson_eq_ok_iff : ofJson v = .ok p ↔
    ∃ es, v = .obj es ∧ (∀ name ∈ Entries.names es, name ∈ Pacing.names) ∧ p = ofMembers es := by
  cases v with
  | obj es =>
    have htaken : Pacing.taken ∉ Pacing.names := by decide
    rw [ofJson, ofEntries, bind_eq_ok_iff]
    constructor
    · rintro ⟨⟨⟩, hnames, hp⟩
      rw [mapError_eq_ok_iff, Entries.checkNames_eq_ok_iff htaken] at hnames
      exact ⟨es, rfl, hnames, (Except.ok.inj hp).symm⟩
    · rintro ⟨_, ⟨⟩, hnames, rfl⟩
      refine ⟨(), ?_, rfl⟩
      rw [mapError_eq_ok_iff, Entries.checkNames_eq_ok_iff htaken]
      exact hnames
  | _ => exact iff_of_false nofun (by rintro ⟨_, ⟨⟩, -⟩)

end Pacing

namespace Settings

variable {folder : Folder} {o : Options} {given es : Entries} {p : Pacing} {s : Settings}
  {v w flag : Json} {name : String}

theorem isNegative_eq_false_iff : isNegative v = .ok false ↔ v.IsDelay := by
  unfold isNegative Json.IsDelay
  cases v.number? with
  | none => exact iff_of_false nofun (by rintro ⟨_, ⟨⟩, -⟩)
  | some x =>
    have hlt : x.lt (.ofInt 0) = false ↔ ¬ x.IsNegative := by
      rw [← Bool.not_eq_true, Extended.lt_zero_iff]
    simp only [Except.ok.injEq, hlt, Option.some.injEq, exists_eq_left']

theorem checkPacing_eq_ok_iff :
    checkPacing p = .ok () ↔ p.moveDelay.IsDelay ∧ p.turnDelay.IsDelay := by
  rw [← isNegative_eq_false_iff, ← isNegative_eq_false_iff, checkPacing]
  rcases hmove : isNegative p.moveDelay with _ | _ | _
  · exact iff_of_false nofun nofun
  · rcases hturn : isNegative p.turnDelay with _ | _ | _
    · exact iff_of_false nofun nofun
    · exact iff_of_true rfl ⟨rfl, rfl⟩
    · exact iff_of_false nofun nofun
  · exact iff_of_false nofun nofun

/-! ## Entries under flags -/

theorem get?_putIf (given : Bool) (name : String) (v : Json) (es : Entries) (other : String) :
    Entries.get? other (putIf given name v es) =
      if given = true ∧ name = other then some v else Entries.get? other es := by
  cases given with
  | false => simp [putIf]
  | true => simp [putIf, Entries.get?_put]

theorem known_put {known : List String} (hname : name ∈ known) (v : Json) (es : Entries) :
    (∀ k ∈ names (Entries.put name v es), k ∈ known) ↔ ∀ k ∈ names es, k ∈ known := by
  rw [Entries.names_put]
  split
  · rfl
  · rw [List.forall_mem_append, List.forall_mem_singleton, and_iff_left hname]

theorem known_putIf {known : List String} (hname : name ∈ known) (given : Bool) (v : Json)
    (es : Entries) :
    (∀ k ∈ names (putIf given name v es), k ∈ known) ↔ ∀ k ∈ names es, k ∈ known := by
  cases given with
  | false => rfl
  | true => exact known_put hname v es

/-- The entries with a delay among them, if its flag was given. -/
def putFlag (name : String) (flag : Json) (es : Entries) : Entries :=
  if flag.isNull then es else Entries.put name flag es

theorem putDelay_obj (name : String) (flag : Json) (es : Entries) :
    putDelay name flag (.obj es) = .ok (.obj (putFlag name flag es)) := by
  unfold putDelay putFlag
  split <;> rfl

theorem eq_of_putDelay_leaf (hv : v.isObject = false) (h : putDelay name flag v = .ok w) :
    w = v := by
  unfold putDelay at h
  split at h
  · exact (Except.ok.inj h).symm
  · cases v with
    | obj es => cases hv
    | _ => cases h

theorem known_putFlag (hname : name ∈ Pacing.names) (flag : Json) (es : Entries) :
    (∀ k ∈ names (putFlag name flag es), k ∈ Pacing.names) ↔ ∀ k ∈ names es, k ∈ Pacing.names := by
  unfold putFlag
  split
  · rfl
  · exact known_put hname flag es

/-- A delay under its flag. -/
def flagged (flag delay : Json) : Json := if flag.isNull then delay else flag

theorem ofMembers_putFlags (move turn : Json) (es : Entries) :
    Pacing.ofMembers (putFlag "turn_delay" turn (putFlag "move_delay" move es)) =
      ⟨flagged move (Pacing.ofMembers es).moveDelay,
        flagged turn (Pacing.ofMembers es).turnDelay⟩ := by
  unfold putFlag flagged Pacing.ofMembers
  cases move.isNull <;> cases turn.isNull <;> simp [Entries.get?_put]

/-- The delays of the command line go into whatever pacing there is; it comes to a pacing just when
there was one to begin with. -/
theorem paced_eq_ok_iff {move turn : Json} :
    (∃ x y, putDelay "move_delay" move v = .ok x ∧ putDelay "turn_delay" turn x = .ok y ∧
      Pacing.ofJson y = .ok p) ↔
    ∃ es, v = .obj es ∧ (∀ name ∈ names es, name ∈ Pacing.names) ∧
      p = ⟨flagged move (Pacing.ofMembers es).moveDelay,
        flagged turn (Pacing.ofMembers es).turnDelay⟩ := by
  have hmove : "move_delay" ∈ Pacing.names := by decide
  have hturn : "turn_delay" ∈ Pacing.names := by decide
  constructor
  · rintro ⟨x, y, hx, hy, hp⟩
    obtain ⟨fs, rfl, hnames, rfl⟩ := Pacing.ofJson_eq_ok_iff.mp hp
    cases hv : v.isObject with
    | false =>
      cases eq_of_putDelay_leaf hv hx
      cases eq_of_putDelay_leaf hv hy
      cases hv
    | true =>
      obtain ⟨es, rfl⟩ := Json.isObject_iff.mp hv
      cases (putDelay_obj _ _ _).symm.trans hx
      cases (putDelay_obj _ _ _).symm.trans hy
      rw [known_putFlag hturn, known_putFlag hmove] at hnames
      exact ⟨es, rfl, hnames, ofMembers_putFlags move turn es⟩
  · rintro ⟨es, rfl, hnames, rfl⟩
    refine ⟨_, _, putDelay_obj _ _ _, putDelay_obj _ _ _, ?_⟩
    refine Pacing.ofJson_eq_ok_iff.mpr ⟨_, rfl, ?_, ?_⟩
    · rw [known_putFlag hturn, known_putFlag hmove]
      exact hnames
    · rw [ofMembers_putFlags]

/-- The entries once their pacing is settled. -/
def settled (o : Options) (pacing : Json) (entries : Entries) : Entries :=
  let entries := Entries.put "catalog_path" (.str o.catalog.spoken) entries
  let entries := Entries.put "challenge_id" o.challenge entries
  let entries := Entries.put "program_path" (.str o.program.spoken) entries
  let entries := putIf o.fast.isTruthy "pacing" Pacing.immediate.toJson entries
  let entries := Entries.put "pacing" pacing entries
  let entries := putIf o.exportDir.isTruthy "export_dir" (.str o.exportDir.spoken) entries
  let entries := putIf o.quiet.isTruthy "log_to_console" (.bool false) entries
  let entries := putIf o.logLevel.isTruthy "log_level" o.logLevel entries
  putIf o.ignoreBlockLimit.isTruthy "enforce_block_limit" (.bool false) entries

/-- The pacing that the delays of the command line go into. -/
def pacingUnder (o : Options) (entries : Entries) : Json :=
  if o.fast.isTruthy then Pacing.immediate.toJson else pacingEntry entries

theorem withOptions_eq (o : Options) (entries : Entries) :
    withOptions o entries = (do
      let x ← putDelay "move_delay" o.moveDelay (pacingUnder o entries)
      let y ← putDelay "turn_delay" o.turnDelay x
      pure (settled o y entries)) := by
  have hpacing : pacingEntry (putIf o.fast.isTruthy "pacing" Pacing.immediate.toJson
      (Entries.put "program_path" (.str o.program.spoken) (Entries.put "challenge_id" o.challenge
        (Entries.put "catalog_path" (.str o.catalog.spoken) entries)))) =
      pacingUnder o entries := by
    unfold pacingEntry pacingUnder
    rw [get?_putIf]
    cases o.fast.isTruthy <;> simp [Entries.get?_put, pacingEntry]
  rw [← hpacing]
  rfl

theorem known_settled (o : Options) (pacing : Json) (entries : Entries) :
    (∀ name ∈ names (settled o pacing entries), name ∈ defaults.map Prod.fst) ↔
      ∀ name ∈ names entries, name ∈ defaults.map Prod.fst := by
  unfold settled
  dsimp only
  rw [known_putIf (by decide), known_putIf (by decide), known_putIf (by decide),
    known_putIf (by decide), known_put (by decide), known_putIf (by decide), known_put (by decide),
    known_put (by decide), known_put (by decide)]

/-! ## The file over the built-in values -/

/-- The built-in values with the entries of the file over them. -/
def merged (given : Entries) : Entries := Json.mergeEntries defaults given

/-- Entries laid over those with just the known names bring in an unknown name if they have one. -/
theorem known_mergeEntries {known : Entries} (h : (names es).Nodup) :
    (∀ name ∈ names (Json.mergeEntries known es), name ∈ names known) ↔
      ∀ name ∈ names es, name ∈ names known := by
  rw [Json.names_mergeEntries _ h, List.forall_mem_append]
  constructor
  · rintro ⟨-, hnew⟩ name hname
    by_cases hin : name ∈ names known
    · exact hin
    · exact hnew name (List.mem_filter.mpr ⟨hname, decide_eq_true hin⟩)
  · intro hall
    exact ⟨fun _ => id, fun name hname => hall name (List.mem_filter.mp hname).1⟩

/-- A built-in value that is no object gives way to whatever the file has. -/
theorem get?_merged (h : (names given).Nodup) (hdefault : Entries.get? name defaults = some v)
    (hv : v.isObject = false) :
    Entries.get? name (merged given) = some ((given.get? name).getD v) := by
  rw [merged, Json.get?_mergeEntries _ h, hdefault]
  cases given.get? name with
  | none => rfl
  | some w => exact congrArg some (Json.merge_onto_leaf hv w)

/-- The delay of the file, or the built-in one. -/
def fileDelay (given : Entries) (name : String) (usual : Json) : Json :=
  ((given.get? "pacing").bind (Json.get? name)).getD usual

/-- The built-in delays by name. -/
def defaultDelays : Entries :=
  [("move_delay", Pacing.tenths 4), ("turn_delay", Pacing.tenths 2)]

theorem ofMembers_defaultDelays (h : (names es).Nodup) :
    Pacing.ofMembers (Json.mergeEntries defaultDelays es) =
      ⟨(es.get? "move_delay").getD (Pacing.tenths 4),
        (es.get? "turn_delay").getD (Pacing.tenths 2)⟩ := by
  unfold Pacing.ofMembers
  rw [Json.get?_mergeEntries _ h, Json.get?_mergeEntries _ h]
  have hleaf : ∀ n v, Json.merge (Pacing.tenths n) v = v := fun n v => Json.merge_onto_leaf rfl v
  cases es.get? "move_delay" <;> cases es.get? "turn_delay" <;>
    simp [Json.laid, defaultDelays, Entries.get?, hleaf]

/-- The file has a pacing to begin with just when it has none of its own, or one without unknown
names. -/
theorem pacing_merged_iff (h : (Json.obj given).Tidy) :
    (∃ es, pacingEntry (merged given) = .obj es ∧ (∀ name ∈ names es, name ∈ Pacing.names) ∧
      p = Pacing.ofMembers es) ↔
    (∀ v, given.get? "pacing" = some v →
      ∃ es, v = .obj es ∧ ∀ name ∈ names es, name ∈ Pacing.names) ∧
      p = ⟨fileDelay given "move_delay" (Pacing.tenths 4),
        fileDelay given "turn_delay" (Pacing.tenths 2)⟩ := by
  have hentry : pacingEntry (merged given) =
      ((given.get? "pacing").map (Json.merge (.obj defaultDelays))).getD (.obj defaultDelays) := by
    rw [pacingEntry, merged, Json.get?_mergeEntries _ h.nodup]
    cases given.get? "pacing" <;> rfl
  rw [hentry]
  unfold fileDelay
  cases hgiven : given.get? "pacing" with
  | none =>
    constructor
    · rintro ⟨_, ⟨⟩, -, rfl⟩
      exact ⟨nofun, rfl⟩
    · rintro ⟨-, rfl⟩
      exact ⟨defaultDelays, rfl, by decide, rfl⟩
  | some v =>
    cases hv : v.isObject with
    | false =>
      rw [Option.map_some, Option.getD_some, Json.merge_of_leaf hv]
      refine iff_of_false ?_ ?_
      · rintro ⟨es, rfl, -⟩
        cases hv
      · rintro ⟨hobject, -⟩
        obtain ⟨es, rfl, -⟩ := hobject v rfl
        cases hv
    | true =>
      obtain ⟨es, rfl⟩ := Json.isObject_iff.mp hv
      have hes := (h.member hgiven).nodup
      rw [Option.map_some, Option.getD_some, Json.merge]
      constructor
      · rintro ⟨_, ⟨⟩, hnames, rfl⟩
        refine ⟨?_, ofMembers_defaultDelays hes⟩
        rintro _ ⟨⟩
        exact ⟨es, rfl, (known_mergeEntries hes).mp hnames⟩
      · rintro ⟨hknown, rfl⟩
        obtain ⟨_, ⟨⟩, hnames⟩ := hknown _ rfl
        exact ⟨_, rfl, (known_mergeEntries hes).mpr hnames, (ofMembers_defaultDelays hes).symm⟩

theorem pacingUnder_merged_iff (h : (Json.obj given).Tidy) {move turn : Json} :
    (∃ es, pacingUnder o (merged given) = .obj es ∧ (∀ name ∈ names es, name ∈ Pacing.names) ∧
      p = ⟨flagged move (Pacing.ofMembers es).moveDelay,
        flagged turn (Pacing.ofMembers es).turnDelay⟩) ↔
    (o.fast.isTruthy = false → ∀ v, given.get? "pacing" = some v →
      ∃ es, v = .obj es ∧ ∀ name ∈ names es, name ∈ Pacing.names) ∧
      p = ⟨o.delay given move "move_delay" (Pacing.tenths 4),
        o.delay given turn "turn_delay" (Pacing.tenths 2)⟩ := by
  unfold pacingUnder Options.delay
  cases o.fast.isTruthy with
  | true =>
    constructor
    · rintro ⟨_, ⟨⟩, -, rfl⟩
      exact ⟨nofun, rfl⟩
    · rintro ⟨-, rfl⟩
      exact ⟨_, rfl, by decide, rfl⟩
  | false =>
    have hfile := fun p => pacing_merged_iff (p := p) h
    constructor
    · rintro ⟨es, hes, hnames, rfl⟩
      obtain ⟨hsound, hdelays⟩ := (hfile _).mp ⟨es, hes, hnames, rfl⟩
      rw [hdelays]
      exact ⟨fun _ => hsound, rfl⟩
    · rintro ⟨hsound, rfl⟩
      obtain ⟨es, hes, hnames, hdelays⟩ := (hfile _).mpr ⟨hsound rfl, rfl⟩
      refine ⟨es, hes, hnames, ?_⟩
      rw [← hdelays]
      rfl

/-! ## The settings -/

def valueOf (name : String) (entries : Entries) : Json := (entries.get? name).getD .null

/-- Settings with the values of options where those were given, else of entries. -/
def gathered (o : Options) (p : Pacing) (es : Entries) : Settings where
  catalogPath := o.catalog.spoken
  challengeId := o.challenge
  programPath := o.program.spoken
  pacing := p
  exportDir := if o.exportDir.isTruthy then .str o.exportDir.spoken else valueOf "export_dir" es
  runName := valueOf "run_name" es
  logToConsole := if o.quiet.isTruthy then .bool false else valueOf "log_to_console" es
  logLevel := if o.logLevel.isTruthy then o.logLevel else valueOf "log_level" es
  enforceBlockLimit :=
    if o.ignoreBlockLimit.isTruthy then .bool false else valueOf "enforce_block_limit" es

/-- What settings hold once their pacing is known. -/
theorem gathered_settled (o : Options) (p : Pacing) (y : Json) (es : Entries) :
    (⟨(valueOf "catalog_path" (settled o y es)).spoken, valueOf "challenge_id" (settled o y es),
      (valueOf "program_path" (settled o y es)).spoken, p, valueOf "export_dir" (settled o y es),
      valueOf "run_name" (settled o y es), valueOf "log_to_console" (settled o y es),
      valueOf "log_level" (settled o y es),
      valueOf "enforce_block_limit" (settled o y es)⟩ : Settings) = gathered o p es := by
  have hspoken (t : String) : (Json.str t).spoken = t := rfl
  simp only [valueOf, settled, get?_putIf, Entries.get?_put, gathered]
  cases o.exportDir.isTruthy <;> cases o.quiet.isTruthy <;> cases o.logLevel.isTruthy <;>
    cases o.ignoreBlockLimit.isTruthy <;> simp [hspoken]

theorem ofEntries_settled_eq_ok_iff {y : Json} : ofEntries (settled o y es) = .ok s ↔
    ∃ p, Pacing.ofJson y = .ok p ∧ (∀ name ∈ names es, name ∈ defaults.map Prod.fst) ∧
      p.moveDelay.IsDelay ∧ p.turnDelay.IsDelay ∧ s = gathered o p es := by
  have htaken : taken ∉ defaults.map Prod.fst := by decide
  have hpacing : pacingEntry (settled o y es) = y := by
    simp [pacingEntry, settled, get?_putIf, Entries.get?_put]
  constructor
  · intro h
    obtain ⟨p, hp, h⟩ := exists_of_bind_eq_ok h
    obtain ⟨⟨⟩, hnames, h⟩ := exists_of_bind_eq_ok h
    obtain ⟨⟨⟩, hdelays, h⟩ := exists_of_bind_eq_ok h
    rw [hpacing, mapError_eq_ok_iff] at hp
    rw [mapError_eq_ok_iff, Entries.checkNames_eq_ok_iff htaken, known_settled] at hnames
    obtain ⟨hmove, hturn⟩ := checkPacing_eq_ok_iff.mp hdelays
    exact ⟨p, hp, hnames, hmove, hturn, (Except.ok.inj h).symm.trans (gathered_settled o p y es)⟩
  · rintro ⟨p, hp, hnames, hmove, hturn, rfl⟩
    rw [← hpacing, ← mapError_eq_ok_iff] at hp
    rw [← known_settled o y, ← Entries.checkNames_eq_ok_iff htaken, ← mapError_eq_ok_iff] at hnames
    have hdelays := checkPacing_eq_ok_iff.mpr ⟨hmove, hturn⟩
    exact bind_eq_ok_iff.mpr ⟨p, hp, bind_eq_ok_iff.mpr ⟨(), hnames, bind_eq_ok_iff.mpr
      ⟨(), hdelays, congrArg Except.ok (gathered_settled o p y es)⟩⟩⟩

theorem withFile_of_given (hworded : o.IsWorded) (hgiven : o.Given folder given) :
    withFile folder o.config defaults = .ok (merged given) := by
  unfold withFile
  unfold Options.Given at hgiven
  rw [hworded.config.isTruthy]
  split at hgiven
  · rename_i hnone
    rw [hnone, hgiven]
    rfl
  · rename_i path hpath
    have hconfig : o.config = .str path := by
      revert hpath
      cases o.config <;> simp [Json.wording?]
    rw [hpath, hconfig, hgiven]
    rfl

theorem tidy_of_given (hgiven : o.Given folder given) : (Json.obj given).Tidy := by
  unfold Options.Given at hgiven
  split at hgiven
  · rw [hgiven]
    exact Json.tidy_empty
  · unfold Folder.readJson at hgiven
    split at hgiven
    · cases hgiven
    split at hgiven
    · rename_i hparse
      cases hgiven
      exact Json.tidy_of_parse? hparse
    · cases hgiven

theorem wording_text (h : v.IsWording) (w : Json) :
    (if v.isTruthy then .str v.spoken else w) = (v.wording?.map Json.str).getD w := by
  rcases h with rfl | rfl | ⟨t, rfl, ht⟩
  · rfl
  · rfl
  · exact if_pos (decide_eq_true ht)

theorem wording_value (h : v.IsWording) (w : Json) :
    (if v.isTruthy then v else w) = (v.wording?.map Json.str).getD w := by
  rcases h with rfl | rfl | ⟨t, rfl, ht⟩
  · rfl
  · rfl
  · exact if_pos (decide_eq_true ht)

theorem valueOf_merged (h : (names given).Nodup) (name : String)
    (hdefault : Entries.get? name defaults = some v) (hv : v.isObject = false) :
    valueOf name (merged given) = (given.get? name).getD v := by
  rw [valueOf, get?_merged h hdefault hv]
  rfl

theorem follows_gathered (hworded : o.IsWorded) (h : (names given).Nodup) :
    (gathered o ⟨o.moveDelayOver given, o.turnDelayOver given⟩ (merged given)).Follows o given where
  catalogPath := rfl
  challengeId := rfl
  programPath := rfl
  moveDelay := rfl
  turnDelay := rfl
  exportDir := by
    rw [← valueOf_merged h "export_dir" rfl rfl]
    exact wording_text hworded.exportDir _
  runName := valueOf_merged h "run_name" rfl rfl
  logToConsole := by
    rw [← valueOf_merged h "log_to_console" rfl rfl]
    rfl
  logLevel := by
    rw [← valueOf_merged h "log_level" rfl rfl]
    exact wording_value hworded.logLevel _
  enforceBlockLimit := by
    rw [← valueOf_merged h "enforce_block_limit" rfl rfl]
    rfl

/-- There is one value for every setting. -/
theorem Follows.unique {s t : Settings} (hs : s.Follows o given) (ht : t.Follows o given) :
    s = t := by
  obtain ⟨_, _, _, ⟨_, _⟩, _, _, _, _, _⟩ := s
  obtain ⟨_, _, _, ⟨_, _⟩, _, _, _, _, _⟩ := t
  obtain ⟨h₁, h₂, h₃, h₄, h₅, h₆, h₇, h₈, h₉, h₁₀⟩ := hs
  obtain ⟨k₁, k₂, k₃, k₄, k₅, k₆, k₇, k₈, k₉, k₁₀⟩ := ht
  dsimp only at *
  subst h₁ h₂ h₃ h₄ h₅ h₆ h₇ h₈ h₉ h₁₀ k₁ k₂ k₃ k₄ k₅ k₆ k₇ k₈ k₉ k₁₀
  rfl

/-- Settings are returned just for what is sound, and then they are the gathered ones. -/
theorem ofOptions_eq_ok_gathered_iff (hworded : o.IsWorded) (hgiven : o.Given folder given) :
    ofOptions folder o = .ok s ↔ o.Sound given ∧
      s = gathered o ⟨o.moveDelayOver given, o.turnDelayOver given⟩ (merged given) := by
  have htidy := tidy_of_given hgiven
  have hread : ofOptions folder o = (withOptions o (merged given) >>= ofEntries) := by
    rw [ofOptions, withFile_of_given hworded hgiven]
    rfl
  rw [hread, withOptions_eq]
  constructor
  · intro h
    obtain ⟨es, hes, h⟩ := exists_of_bind_eq_ok h
    obtain ⟨x, hx, hes⟩ := exists_of_bind_eq_ok hes
    obtain ⟨y, hy, hes⟩ := exists_of_bind_eq_ok hes
    cases hes
    obtain ⟨p, hp, hknown, hmove, hturn, rfl⟩ := ofEntries_settled_eq_ok_iff.mp h
    obtain ⟨hpacing, rfl⟩ :=
      (pacingUnder_merged_iff htidy).mp (paced_eq_ok_iff.mp ⟨x, y, hx, hy, hp⟩)
    exact ⟨⟨(known_mergeEntries htidy.nodup).mp hknown, hpacing, hmove, hturn⟩, rfl⟩
  · rintro ⟨hsound, rfl⟩
    obtain ⟨x, y, hx, hy, hp⟩ :=
      paced_eq_ok_iff.mpr ((pacingUnder_merged_iff htidy).mpr ⟨hsound.pacing, rfl⟩)
    rw [hx]
    show (putDelay "turn_delay" o.turnDelay x >>= fun y => _) >>= ofEntries = _
    rw [hy]
    exact ofEntries_settled_eq_ok_iff.mpr ⟨_, hp, (known_mergeEntries htidy.nodup).mpr hsound.known,
      hsound.moveDelay, hsound.turnDelay, rfl⟩

theorem ofOptions_eq_ok_iff (hworded : o.IsWorded) (hgiven : o.Given folder given) :
    ofOptions folder o = .ok s ↔ o.Sound given ∧ s.Follows o given := by
  have hfollows := follows_gathered hworded (tidy_of_given hgiven).nodup
  rw [ofOptions_eq_ok_gathered_iff hworded hgiven]
  refine and_congr_right fun _ => ⟨?_, fun h => h.unique hfollows⟩
  rintro rfl
  exact hfollows

theorem blame_of_ofOptions {e : SettingsError}
    (hfile : ∀ path v, o.config = .str path → folder.readJson (.str path) = .ok v →
      v.isObject = true) (hworded : o.IsWorded) (h : ofOptions folder o = .error e) :
    e.blame ≠ .member := by
  refine SettingsError.blame_ne_member fun m hm => ?_
  obtain ⟨htruthy, v, hread, hleaf⟩ := ofOptions_merge_iff.mp ⟨m, hm ▸ h⟩
  rw [hworded.config.isTruthy] at htruthy
  cases hconfig : o.config with
  | str path =>
    rw [hconfig] at hread
    cases hleaf.symm.trans (hfile path v hconfig hread)
  | _ =>
    rw [hconfig] at htruthy
    cases htruthy

theorem exists_given {s : Settings}
    (hfile : ∀ path v, o.config = .str path → folder.readJson (.str path) = .ok v →
      v.isObject = true) (hworded : o.IsWorded) (h : ofOptions folder o = .ok s) :
    ∃ given, o.Given folder given := by
  obtain ⟨es, hes, -⟩ := exists_of_bind_eq_ok h
  unfold withFile at hes
  rw [hworded.config.isTruthy] at hes
  unfold Options.Given
  cases hconfig : o.config with
  | str path =>
    rw [hconfig] at hes
    obtain ⟨v, hread, -⟩ := exists_of_bind_eq_ok hes
    obtain ⟨given, rfl⟩ := Json.isObject_iff.mp (hfile path v hconfig (eq_ok_of_mapError hread))
    exact ⟨given, eq_ok_of_mapError hread⟩
  | _ => exact ⟨[], rfl⟩

/-- Every command line, with a file of settings or without one: an error is about the file system,
the kind of a value or a value, and settings have each value in its order. They are returned just
when the entries of the file and the delays that count are sound. -/
theorem settings_by_precedence {words : List String} (hwords : Options.parse words = .ok o)
    (hfile : ∀ path v, o.config = .str path → folder.readJson (.str path) = .ok v →
      v.isObject = true) :
    (∀ e, ofOptions folder o = .error e →
      e.blame = .system ∨ e.blame = .kind ∨ e.blame = .value) ∧
    (∀ s, ofOptions folder o = .ok s → ∃ given, o.Given folder given ∧ s.Follows o given) ∧
    ∀ given, o.Given folder given → ((∃ s, ofOptions folder o = .ok s) ↔ o.Sound given) := by
  have hworded := Options.isWorded_of_parse hwords
  refine ⟨fun e he => ?_, fun s hs => ?_, fun given hgiven => ?_⟩
  · have hblame := blame_of_ofOptions hfile hworded he
    cases hb : e.blame with
    | member => exact absurd hb hblame
    | system => exact .inl rfl
    | kind => exact .inr (.inl rfl)
    | value => exact .inr (.inr rfl)
  · obtain ⟨given, hgiven⟩ := exists_given hfile hworded hs
    exact ⟨given, hgiven, ((ofOptions_eq_ok_iff hworded hgiven).mp hs).2⟩
  · constructor
    · rintro ⟨s, hs⟩
      exact ((ofOptions_eq_ok_iff hworded hgiven).mp hs).1
    · intro hsound
      exact ⟨_, (ofOptions_eq_ok_gathered_iff hworded hgiven).mpr ⟨hsound, rfl⟩⟩

/-! ## A file, then flags -/

def nightlyFile : Entries :=
  [("pacing", .obj [("move_delay", .int 1)]), ("run_name", .str "nightly"),
    ("challenge_id", .str "elsewhere"), ("log_to_console", .bool true)]

def nightlyDesk : Folder := Launch.desk .null .null (.obj nightlyFile)

def nightlyWords : List String :=
  Launch.hallWords ++ ["--turn-delay", "2", "--config", "config.json", "--quiet"]

def nightlyReading : List Word :=
  [.value "catalog.json", .value "hall", .value "program.json", .flag .turnDelay none, .value "2",
    .flag .config none, .value "config.json", .flag .quiet none]

def nightlyOptions : Options :=
  { Launch.hallOptions with
    config := .str "config.json"
    turnDelay := .float (Binary64.ofDecimal false 2 0)
    quiet := .bool true }

theorem decimal?_two : Text.decimal? ['2'] = some (Binary64.ofDecimal false 2 0) := by
  decide +kernel

theorem parse_nightlyWords : Options.parse nightlyWords = .ok nightlyOptions := by
  have hdelay : Taking.delay "2" = .ok nightlyOptions.turnDelay := by
    have htwo : Text.decimal? "2".toList = some (Binary64.ofDecimal false 2 0) := decimal?_two
    rw [Taking.delay, htwo]
    rfl
  have hwords : Word.ofTexts nightlyWords = .ok nightlyReading := by rfl
  have hrun : Taking.run ⟨[], .none, false⟩ nightlyReading =
      .ok ⟨[some "catalog.json", some "hall", some "program.json"],
        { nightlyOptions with catalog := .null, challenge := .null, program := .null },
        false⟩ := by
    show ((Taking.valueOf Taking.delay (some "2")).map _).map _ >>= _ = _
    rw [Taking.valueOf, hdelay]
    rfl
  rw [Options.parse, hwords]
  show (Taking.run _ nightlyReading >>= _) = _
  rw [hrun]
  rfl

theorem settings_by_precedence_nightly : Options.parse nightlyWords = .ok nightlyOptions ∧
    nightlyDesk.readJson (.str "config.json") = .ok (.obj nightlyFile) ∧
    ∃ s, ofOptions nightlyDesk nightlyOptions = .ok s ∧ s.challengeId = .str "hall" ∧
      s.pacing.moveDelay = .int 1 ∧ s.pacing.turnDelay = nightlyOptions.turnDelay ∧
      s.runName = .str "nightly" ∧ s.logToConsole = .bool false ∧ s.logLevel = .str "WARNING" := by
  have hread : nightlyDesk.readJson (.str "config.json") = .ok (.obj nightlyFile) :=
    Folder.readJson_of_file (by decide) (by decide) rfl rfl rfl
      (Json.parse?_render (v := .obj nightlyFile) (by decide))
  have hgiven : nightlyOptions.Given nightlyDesk nightlyFile := hread
  have hfile : ∀ path v, nightlyOptions.config = .str path →
      nightlyDesk.readJson (.str path) = .ok v → v.isObject = true := by
    rintro path v ⟨⟩ hv
    cases hread.symm.trans hv
    rfl
  obtain ⟨-, hfollows, hsound⟩ := settings_by_precedence parse_nightlyWords hfile
  obtain ⟨s, hs⟩ := (hsound nightlyFile hgiven).mpr
    { known := by decide
      pacing := by rintro - _ ⟨⟩; exact ⟨_, rfl, by decide⟩
      moveDelay := isNegative_eq_false_iff.mp rfl
      turnDelay := isNegative_eq_false_iff.mp rfl }
  obtain ⟨given, hgiven', hs'⟩ := hfollows s hs
  cases Json.obj.inj (Except.ok.inj (hgiven.symm.trans hgiven'))
  exact ⟨parse_nightlyWords, hread, s, hs, hs'.challengeId, hs'.moveDelay, hs'.turnDelay,
    hs'.runName, hs'.logToConsole, hs'.logLevel⟩

end Settings

end BlockGrid
