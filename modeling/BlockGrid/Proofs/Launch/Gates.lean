import BlockGrid.Launch.Verdict
import BlockGrid.Proofs.Run.Clock
import BlockGrid.Proofs.Run.Reload
import BlockGrid.Proofs.Trace.Loading

/-!
# BlockGrid.Proofs.Launch.Gates

The gates that a launch passes, in order, and all that can become of it.

* `Stage.result_bind` — what stages in a row come to.
* `Setup.FoundBy`     — the setup that settings lead to, gate by gate; `found_eq_ok_iff`.
* `Setup.MissedBy`    — the gate at which they lead to none; `found_eq_error_iff`.
* `Host.Shows`        — whether the console takes what is said before the run.
* `result_of_unranked`, `result_of_unfound`, `result_of_overBudget`, `result_of_unshown`,
  `result_of_unslept`, `result_of_slept` — a launch with settings, by the gate that it comes to.
* `Launch.Course`     — the ways that it can go; `course_of_settings`, it goes one of them.
-/

namespace BlockGrid

namespace Stage

variable {α β : Type}

theorem result_bind (s : Stage α) (f : α → Stage β) :
    (s >>= f).result = s.result >>= fun a => (f a).result := by
  cases h : s.result with
  | error e => rw [bind_error h]; rfl
  | ok a => rw [bind_ok h]; rfl

theorem rejected_of_bind {s : Stage α} {f : α → Stage β}
    (h : (s >>= f).result = .error .rejected) :
    s.result = .error .rejected ∨ ∃ a, s.result = .ok a ∧ (f a).result = .error .rejected := by
  rw [result_bind] at h
  exact cases_of_bind_eq_error h

theorem result_orFail {ε : Type} (wrap : ε → LaunchError) (x : Except ε α) :
    (orFail wrap x).result = x.mapError fun e => .failed (wrap e) := by
  cases x <;> rfl

theorem orFail_ne_rejected {ε : Type} (wrap : ε → LaunchError) (x : Except ε α) :
    (orFail wrap x).result ≠ .error .rejected := by
  cases x <;> exact nofun

theorem result_say (host : Host) (t : LooseText) :
    (say host t).result = .ok () ∧ (host.strictConsole = true → t.isTorn = false) ∨
      (∃ e, (say host t).result = .error (.failed (.encode e))) ∧
        host.strictConsole = true ∧ t.isTorn = true := by
  unfold say
  cases t with
  | whole s => exact .inl ⟨rfl, fun _ => rfl⟩
  | torn s half rest =>
    cases hconsole : host.strictConsole with
    | true => exact .inr ⟨⟨_, rfl⟩, rfl, rfl⟩
    | false => exact .inl ⟨rfl, nofun⟩

theorem result_sayAll_of_whole {host : Host} {ts : List LooseText}
    (h : host.strictConsole = true → ∀ t ∈ ts, t.isTorn = false) :
    (sayAll host ts).result = .ok () := by
  induction ts with
  | nil => rfl
  | cons t ts ih =>
    rw [sayAll, result_bind]
    rcases result_say host t with ⟨hsaid, -⟩ | ⟨-, hconsole, htorn⟩
    · rw [hsaid]
      exact ih fun hconsole => (List.forall_mem_cons.mp (h hconsole)).2
    · cases htorn.symm.trans (h hconsole t List.mem_cons_self)

theorem result_sayAll_of_torn {host : Host} {ts : List LooseText}
    (hconsole : host.strictConsole = true) (h : ∃ t ∈ ts, t.isTorn = true) :
    ∃ e, (sayAll host ts).result = .error (.failed (.encode e)) := by
  induction ts with
  | nil =>
    obtain ⟨_, ht, -⟩ := h
    cases ht
  | cons t ts ih =>
    rw [sayAll, result_bind]
    rcases result_say host t with ⟨hsaid, hwhole⟩ | ⟨⟨e, he⟩, -, -⟩
    · rw [hsaid]
      refine ih ?_
      obtain ⟨u, hu, htorn⟩ := h
      rcases List.mem_cons.mp hu with rfl | hu
      · cases htorn.symm.trans (hwhole hconsole)
      · exact ⟨u, hu, htorn⟩
    · rw [he]
      exact ⟨e, rfl⟩

theorem sayAll_ne_rejected (host : Host) (ts : List LooseText) :
    (sayAll host ts).result ≠ .error .rejected := by
  induction ts with
  | nil => exact nofun
  | cons t ts ih =>
    intro h
    rcases rejected_of_bind h with h | ⟨_, -, h⟩
    · rcases result_say host t with ⟨hsaid, -⟩ | ⟨⟨e, he⟩, -, -⟩
      · cases hsaid.symm.trans h
      · cases he.symm.trans h
    · exact ih h

theorem orWait_eq_error {sleep : Sleep} (h : sleep ≠ .elapsed) :
    ∃ e, (orWait sleep).result = .error e := by
  cases sleep with
  | elapsed => exact absurd rfl h
  | _ => exact ⟨_, rfl⟩

theorem orWait_ne_rejected (sleep : Sleep) : (orWait sleep).result ≠ .error .rejected := by
  cases sleep <;> exact nofun

end Stage

/-! ## The setup -/

/-- The setup `u`, found by the settings in a catalog and in the document of a program. -/
structure Setup.FoundBy (u : Setup) (host : Host) (folder : Folder) (s : Settings) (c : Catalog)
    (v : Json) : Prop where
  catalog : Catalog.read host.strictChecker folder s.catalogPath = .ok c
  challenge : c.find s.challengeId = .ok u.challenge
  world : u.challenge.world = .ok u.world
  document : folder.readJson (.str s.programPath) = .ok v
  program : Program.ofTree (.ofJson v) = .ok u.program

theorem Setup.FoundBy.isRegular {u : Setup} {host : Host} {folder : Folder} {s : Settings}
    {c : Catalog} {v : Json} (h : u.FoundBy host folder s c v) :
    Program.isRegular u.program = true :=
  Program.isRegular_of_isSound _ (Program.isSound_of_ofTree h.program)

/-- The gate at which settings lead to no setup. The gates before it were passed. -/
inductive Setup.MissedBy (host : Host) (folder : Folder) (s : Settings) : SetupError → Prop
  | catalog {e : SetupError} : Catalog.read host.strictChecker folder s.catalogPath = .error e →
      MissedBy host folder s e
  | challenge {c : Catalog} {e : SetupError} :
      Catalog.read host.strictChecker folder s.catalogPath = .ok c →
      c.find s.challengeId = .error e → MissedBy host folder s e
  | world {c : Catalog} {d : Challenge} {e : LayoutError} :
      Catalog.read host.strictChecker folder s.catalogPath = .ok c → c.find s.challengeId = .ok d →
      d.world = .error e → MissedBy host folder s (.layout e)
  | document {c : Catalog} {d : Challenge} {w : World} {e : DocumentError} :
      Catalog.read host.strictChecker folder s.catalogPath = .ok c →
      c.find s.challengeId = .ok d → d.world = .ok w →
      folder.readJson (.str s.programPath) = .error e → MissedBy host folder s (.document e)
  | program {c : Catalog} {d : Challenge} {w : World} {v : Json} {e : ProgramError} :
      Catalog.read host.strictChecker folder s.catalogPath = .ok c →
      c.find s.challengeId = .ok d → d.world = .ok w →
      folder.readJson (.str s.programPath) = .ok v → Program.ofTree (.ofJson v) = .error e →
      MissedBy host folder s (.program e)

namespace Host

variable {host : Host}

theorem clock_finite (host : Host) {x : Binary64} (h : x.isFinite = true) :
    host.clock (.float x) = .elapsed := by
  unfold clock
  split
  · exact Clock.loop_finite _ h
  · rfl

theorem clock_ne_elapsed_iff {delay : Json} :
    host.clock delay ≠ .elapsed ↔ host.sleeps = true ∧ delay.Unending host.refusesNaN := by
  unfold clock
  split
  · rename_i hsleeps
    rw [Clock.loop_ne_elapsed_iff, and_iff_right hsleeps]
  · rename_i hsleeps
    exact iff_of_false (fun h => h rfl) fun h => hsleeps h.1

/-- Whether the console takes what is said before a run. -/
def Shows (host : Host) (s : Settings) (u : Setup) : Prop :=
  host.strictConsole = true → s.logToConsole.isTruthy = true →
    u.challenge.id.isTorn = false ∧ u.challenge.title.isTorn = false

end Host

namespace Launch

open Stage

variable {host : Host} {folder : Folder} {stamp : String} {s : Settings} {u : Setup}
  {rank : Nat}

/-- What the settings lead to, without the messages on the way. -/
def found (host : Host) (folder : Folder) (s : Settings) : Except SetupError Setup := do
  let c ← Catalog.read host.strictChecker folder s.catalogPath
  Setup.ofCatalog folder s c

theorem found_eq_ok_iff : found host folder s = .ok u ↔ ∃ c v, u.FoundBy host folder s c v := by
  constructor
  · intro h
    obtain ⟨c, hc, h⟩ := exists_of_bind_eq_ok h
    obtain ⟨challenge, hchallenge, h⟩ := exists_of_bind_eq_ok h
    obtain ⟨world, hworld, h⟩ := exists_of_bind_eq_ok h
    obtain ⟨v, hv, h⟩ := exists_of_bind_eq_ok h
    obtain ⟨program, hprogram, h⟩ := exists_of_bind_eq_ok h
    cases h
    exact ⟨c, v, hc, hchallenge, eq_ok_of_mapError hworld, eq_ok_of_mapError hv,
      eq_ok_of_mapError hprogram⟩
  · rintro ⟨c, v, hc, hd, hw, hv, hp⟩
    simp only [found, Setup.ofCatalog, hc, hd, hw, hv, hp, bind, Except.bind, Except.mapError]
    rfl

theorem found_eq_error_iff {e : SetupError} :
    found host folder s = .error e ↔ Setup.MissedBy host folder s e := by
  constructor
  · intro h
    rcases cases_of_bind_eq_error h with h | ⟨c, hc, h⟩
    · exact .catalog h
    rcases cases_of_bind_eq_error h with h | ⟨d, hd, h⟩
    · exact .challenge hc h
    rcases cases_of_bind_eq_error h with h | ⟨w, hw, h⟩
    · obtain ⟨l, hl, rfl⟩ := exists_of_mapError_eq_error h
      exact .world hc hd hl
    replace hw := eq_ok_of_mapError hw
    rcases cases_of_bind_eq_error h with h | ⟨v, hv, h⟩
    · obtain ⟨x, hx, rfl⟩ := exists_of_mapError_eq_error h
      exact .document hc hd hw hx
    replace hv := eq_ok_of_mapError hv
    rcases cases_of_bind_eq_error h with h | ⟨p, -, h⟩
    · obtain ⟨x, hx, rfl⟩ := exists_of_mapError_eq_error h
      exact .program hc hd hw hv hx
    · cases h
  · rintro (hc | ⟨hc, hd⟩ | ⟨hc, hd, hw⟩ | ⟨hc, hd, hw, hv⟩ | ⟨hc, hd, hw, hv, hp⟩)
    · simp only [found, hc, bind, Except.bind]
    · simp only [found, Setup.ofCatalog, hc, hd, bind, Except.bind]
    · simp only [found, Setup.ofCatalog, hc, hd, hw, bind, Except.bind, Except.mapError]
    · simp only [found, Setup.ofCatalog, hc, hd, hw, hv, bind, Except.bind, Except.mapError]
    · simp only [found, Setup.ofCatalog, hc, hd, hw, hv, hp, bind, Except.bind, Except.mapError]

/-- How a launch ends that has not found its setup. -/
def unfound (e : SetupError) : Ending := if e.isAnswered then .rejected else .failed (.setup e)

theorem result_orReject {α : Type} (rank : Nat) (x : Except SetupError α) :
    (orReject rank x).result = x.mapError unfound := by
  cases x with
  | ok a => rfl
  | error e =>
    show (reject rank e : Stage α).result = .error (unfound e)
    unfold reject unfound
    split <;> rfl

theorem result_setup (host : Host) (rank : Nat) (folder : Folder) (s : Settings) :
    (setup host rank folder s).result = (found host folder s).mapError unfound := by
  rw [setup, result_bind, result_orReject, found]
  cases Catalog.read host.strictChecker folder s.catalogPath with
  | error e => rfl
  | ok c => exact result_orReject rank (Setup.ofCatalog folder s c)

/-! ## What is said before the run -/

theorem heading_isTorn_iff : (∀ t ∈ heading u, t.isTorn = false) ↔
    u.challenge.id.isTorn = false ∧ u.challenge.title.isTorn = false := by
  simp [heading]

theorem result_heading_of_shown (h : host.Shows s u) :
    (sayAll host (if s.logToConsole.isTruthy then heading u else [])).result = .ok () := by
  refine result_sayAll_of_whole fun hconsole => ?_
  split
  · rename_i hverbose
    exact heading_isTorn_iff.mpr (h hconsole hverbose)
  · exact List.forall_mem_nil _

theorem result_heading_of_unshown (h : ¬ host.Shows s u) : ∃ e,
    (sayAll host (if s.logToConsole.isTruthy then heading u else [])).result =
      .error (.failed (.encode e)) := by
  simp only [Host.Shows, Classical.not_imp] at h
  obtain ⟨hconsole, hverbose, htorn⟩ := h
  rw [if_pos hverbose]
  refine result_sayAll_of_torn hconsole ?_
  by_contra hwhole
  refine htorn (heading_isTorn_iff.mp fun t ht => ?_)
  exact Bool.eq_false_iff.mpr fun h => hwhole ⟨t, ht, h⟩

/-! ## The run and its archive -/

theorem result_budget (rank : Nat) (verbose : Bool) (s : Settings) (u : Setup) :
    (budget rank verbose s u).result = if isOverBudget s u then .error .rejected else .ok () := by
  unfold budget
  cases isOverBudget s u <;> rfl

/-- A program that was read always has its replay, which is waited for. -/
theorem result_play (host : Host) (rank : Nat) (verbose : Bool) (s : Settings)
    (hreg : Program.isRegular u.program = true) :
    ∃ r : Replay, r.trace = u.world.record u.program ∧
      r.success = (u.world.result u.program == .success) ∧
      r.events.filterMap Event.motion? = u.world.asked u.program ∧
      (play host rank verbose s u).result =
        (sayAll host (if verbose then heading u else [])).result >>= fun _ =>
          (orWait (host.clock.through s.pacing r.events).2).result.map fun _ => r := by
  obtain ⟨r, hreplay, htrace, hsuccess, hasked⟩ :=
    u.world.replay_eq (Program.ofTree_commands u.program) hreg verbose
  refine ⟨r, htrace, hsuccess, hasked, ?_⟩
  rw [play, result_bind]
  refine congrArg ((sayAll host (if verbose then heading u else [])).result >>= ·)
    (funext fun _ => ?_)
  show (orFail .start (u.world.replay (.tuple (u.program.map .command)) verbose) >>= _).result = _
  rw [hreplay]
  show (orWait (host.clock.through s.pacing r.events).2 >>= _).result = _
  rw [result_bind]
  rfl

theorem result_archive (folder : Folder) (stamp : String) (verbose : Bool) (s : Settings)
    (w : World) (t : Trace Actor) :
    (archive folder stamp verbose s w t).result =
      if s.exportDir.isTruthy then
        ((Archive.ofRun folder stamp s w t).mapError fun e => .failed (.archive e)).map some
      else .ok none := by
  unfold archive
  split
  · rw [result_bind, result_orFail]
    cases Archive.ofRun folder stamp s w t <;> rfl
  · rfl

theorem result_of_unranked {e : VerbosityError} (h : Verbosity.ofJson s.logLevel = .error e) :
    (ofSettings host folder stamp s).result = .error (.failed (.verbosity e)) := by
  rw [ofSettings, result_bind, result_orFail, h]
  rfl

theorem result_of_unfound {e : SetupError} (hrank : Verbosity.ofJson s.logLevel = .ok rank)
    (h : found host folder s = .error e) :
    (ofSettings host folder stamp s).result = .error (unfound e) := by
  rw [ofSettings, result_bind, result_orFail, hrank]
  show (setup host rank folder s >>= _).result = _
  rw [result_bind, result_setup, h]
  rfl

/-- With a setup a launch comes to its budget, and then to its run. -/
theorem result_of_found (host : Host) (stamp : String)
    (hrank : Verbosity.ofJson s.logLevel = .ok rank) (h : found host folder s = .ok u) :
    ∃ r : Replay, r.trace = u.world.record u.program ∧
      r.success = (u.world.result u.program == .success) ∧
      r.events.filterMap Event.motion? = u.world.asked u.program ∧
      (ofSettings host folder stamp s).result =
        if isOverBudget s u then .error .rejected
        else (sayAll host (if s.logToConsole.isTruthy then heading u else [])).result >>= fun _ =>
          (orWait (host.clock.through s.pacing r.events).2).result >>= fun _ =>
            (archive folder stamp s.logToConsole.isTruthy s u.world r.trace).result.map fun a =>
              ⟨r.success, a⟩ := by
  obtain ⟨c, v, hby⟩ := found_eq_ok_iff.mp h
  obtain ⟨r, htrace, hsuccess, hasked, hplay⟩ :=
    result_play host rank s.logToConsole.isTruthy s hby.isRegular
  refine ⟨r, htrace, hsuccess, hasked, ?_⟩
  rw [ofSettings, result_bind, result_orFail, hrank]
  show (setup host rank folder s >>= _).result = _
  rw [result_bind, result_setup, h]
  show (budget rank s.logToConsole.isTruthy s u >>= _).result = _
  rw [result_bind, result_budget]
  split
  · rfl
  · show (play host rank s.logToConsole.isTruthy s u >>= _).result = _
    rw [result_bind, hplay]
    cases (sayAll host (if s.logToConsole.isTruthy then heading u else [])).result with
    | error e => rfl
    | ok _ =>
      cases (orWait (host.clock.through s.pacing r.events).2).result with
      | error e => rfl
      | ok _ =>
        show (archive folder stamp s.logToConsole.isTruthy s u.world r.trace >>= _).result = _
        rw [result_bind]
        cases (archive folder stamp s.logToConsole.isTruthy s u.world r.trace).result <;> rfl

theorem result_of_overBudget (hrank : Verbosity.ofJson s.logLevel = .ok rank)
    (h : found host folder s = .ok u) (hover : isOverBudget s u = true) :
    (ofSettings host folder stamp s).result = .error .rejected := by
  obtain ⟨r, -, -, -, hresult⟩ := result_of_found host stamp hrank h
  rw [hresult, if_pos hover]

/-- A launch stops at a line that the console refuses. -/
theorem result_of_unshown (hrank : Verbosity.ofJson s.logLevel = .ok rank)
    (h : found host folder s = .ok u) (hbudget : isOverBudget s u = false)
    (hshown : ¬ host.Shows s u) :
    ∃ e, (ofSettings host folder stamp s).result = .error (.failed (.encode e)) := by
  obtain ⟨r, -, -, -, hresult⟩ := result_of_found host stamp hrank h
  obtain ⟨e, he⟩ := result_heading_of_unshown hshown
  refine ⟨e, ?_⟩
  rw [hresult, hbudget, if_neg Bool.false_ne_true, he]
  rfl

/-- A run stops at a delay that is never over, and nothing is stored of it. -/
theorem result_of_unslept {m : Motion} (hrank : Verbosity.ofJson s.logLevel = .ok rank)
    (h : found host folder s = .ok u) (hbudget : isOverBudget s u = false)
    (hm : m ∈ u.world.asked u.program) (hdelay : host.clock (s.pacing.delay m) ≠ .elapsed) :
    ∃ k ∈ u.world.asked u.program, host.clock (s.pacing.delay k) ≠ .elapsed ∧
      ∃ e, (ofSettings host folder stamp s).result = .error e ∧ e ≠ .rejected := by
  by_cases hshown : host.Shows s u
  case neg =>
    obtain ⟨e, he⟩ := result_of_unshown hrank h hbudget hshown
    exact ⟨m, hm, hdelay, _, he, nofun⟩
  obtain ⟨r, -, -, hasked, hresult⟩ := result_of_found host stamp hrank h
  rw [hbudget, if_neg Bool.false_ne_true, result_heading_of_shown hshown] at hresult
  rw [← hasked] at hm ⊢
  rcases host.clock.through_cases s.pacing r.events with ⟨-, hall⟩ | ⟨hstuck, k, hk, hsleep⟩
  · exact absurd (hall m hm) hdelay
  · obtain ⟨e, he⟩ := orWait_eq_error hstuck
    refine ⟨k, hk, by rwa [hsleep], e, ?_, ?_⟩
    · rw [hresult, he]
      rfl
    · rintro rfl
      exact orWait_ne_rejected _ he

/-- A run that is slept through has a verdict, as far as the archive allows. -/
theorem result_of_slept (hrank : Verbosity.ofJson s.logLevel = .ok rank)
    (h : found host folder s = .ok u) (hbudget : isOverBudget s u = false)
    (hshown : host.Shows s u)
    (hslept : ∀ m ∈ u.world.asked u.program, host.clock (s.pacing.delay m) = .elapsed) :
    (ofSettings host folder stamp s).result =
      if s.exportDir.isTruthy then
        ((Archive.ofRun folder stamp s u.world (u.world.record u.program)).mapError fun e =>
          .failed (.archive e)).map fun a => ⟨u.world.result u.program == .success, some a⟩
      else .ok ⟨u.world.result u.program == .success, none⟩ := by
  obtain ⟨r, htrace, hsuccess, hasked, hresult⟩ := result_of_found host stamp hrank h
  rw [← hasked] at hslept
  rw [hresult, hbudget, if_neg Bool.false_ne_true, result_heading_of_shown hshown]
  show ((orWait (host.clock.through s.pacing r.events).2).result >>= _) = _
  rw [Clock.through_elapsed_iff.mpr hslept]
  show (archive folder stamp s.logToConsole.isTruthy s u.world r.trace).result.map _ = _
  rw [result_archive, htrace, hsuccess]
  split
  · cases Archive.ofRun folder stamp s u.world (u.world.record u.program) <;> rfl
  · rfl

/-- What can become of a launch with settings. -/
inductive Course (host : Host) (folder : Folder) (stamp : String) (s : Settings) :
    Except Ending Verdict → Prop
  | unranked {e : VerbosityError} : Verbosity.ofJson s.logLevel = .error e →
      Course host folder stamp s (.error (.failed (.verbosity e)))
  | unfound {rank : Nat} {e : SetupError} : Verbosity.ofJson s.logLevel = .ok rank →
      found host folder s = .error e → Course host folder stamp s (.error (unfound e))
  | overBudget {rank : Nat} {u : Setup} : Verbosity.ofJson s.logLevel = .ok rank →
      found host folder s = .ok u → isOverBudget s u = true →
      Course host folder stamp s (.error .rejected)
  | unshown {rank : Nat} {u : Setup} {e : EncodeError} : Verbosity.ofJson s.logLevel = .ok rank →
      found host folder s = .ok u → isOverBudget s u = false → ¬ host.Shows s u →
      Course host folder stamp s (.error (.failed (.encode e)))
  | unslept {rank : Nat} {u : Setup} {m : Motion} {e : Ending} :
      Verbosity.ofJson s.logLevel = .ok rank → found host folder s = .ok u →
      isOverBudget s u = false →
      m ∈ u.world.asked u.program → host.clock (s.pacing.delay m) ≠ .elapsed → e ≠ .rejected →
      Course host folder stamp s (.error e)
  | unstored {rank : Nat} {u : Setup} {e : ArchiveError} :
      Verbosity.ofJson s.logLevel = .ok rank → found host folder s = .ok u →
      isOverBudget s u = false →
      s.exportDir.isTruthy = true →
      Archive.ofRun folder stamp s u.world (u.world.record u.program) = .error e →
      Course host folder stamp s (.error (.failed (.archive e)))
  | ran {rank : Nat} {u : Setup} {a : Option Archive} :
      Verbosity.ofJson s.logLevel = .ok rank → found host folder s = .ok u →
      isOverBudget s u = false →
      (s.exportDir.isTruthy = false → a = none) →
      (s.exportDir.isTruthy = true → ∃ b, a = some b ∧
        Archive.ofRun folder stamp s u.world (u.world.record u.program) = .ok b) →
      Course host folder stamp s (.ok ⟨u.world.result u.program == .success, a⟩)

theorem course_of_settings (host : Host) (folder : Folder) (stamp : String) (s : Settings) :
    Course host folder stamp s (ofSettings host folder stamp s).result := by
  cases hrank : Verbosity.ofJson s.logLevel with
  | error e => rw [result_of_unranked hrank]; exact .unranked hrank
  | ok rank =>
    cases hfound : found host folder s with
    | error e => rw [result_of_unfound hrank hfound]; exact .unfound hrank hfound
    | ok u =>
      cases hover : isOverBudget s u with
      | true => rw [result_of_overBudget hrank hfound hover]; exact .overBudget hrank hfound hover
      | false =>
        by_cases hshown : host.Shows s u
        case neg =>
          obtain ⟨e, he⟩ := result_of_unshown hrank hfound hover hshown
          rw [he]
          exact .unshown hrank hfound hover hshown
        by_cases hstuck : ∃ m ∈ u.world.asked u.program, host.clock (s.pacing.delay m) ≠ .elapsed
        · obtain ⟨m, hm, hdelay⟩ := hstuck
          obtain ⟨k, hk, hsleep, e, he, hne⟩ := result_of_unslept hrank hfound hover hm hdelay
          rw [he]
          exact .unslept hrank hfound hover hk hsleep hne
        · rw [result_of_slept hrank hfound hover hshown fun m hm =>
            by_contra fun hdelay => hstuck ⟨m, hm, hdelay⟩]
          cases hdir : s.exportDir.isTruthy with
          | false =>
            exact .ran hrank hfound hover (fun _ => rfl) fun h => by cases hdir.symm.trans h
          | true =>
            cases hstored : Archive.ofRun folder stamp s u.world (u.world.record u.program) with
            | error e => exact .unstored hrank hfound hover hdir hstored
            | ok b =>
              exact .ran hrank hfound hover (fun h => by cases hdir.symm.trans h)
                fun _ => ⟨b, rfl, hstored⟩

end Launch

end BlockGrid
