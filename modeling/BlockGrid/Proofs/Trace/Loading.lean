import BlockGrid.Proofs.Trace.Failures

/-!
# BlockGrid.Proofs.Trace.Loading

What a write accepts, and what of it is read back.

* `ofActors_eq_ok_iff` — states are packed just when each of them is packable.
* `Trace.HeldBy`       — what an entry holds of a trace, of whatever kind its other parts are.
* `held_of_entryOf`    — the entry that is made of a trace holds it.
* `find_deeds`         — an entry that is there stays there, whatever is done later.
* `read_of_held`, `read_of_unknown` — reading it. States come from the columns, and the state that
  the run began in comes from the reader of states, which a write does not ask.
* `written_loads`      — a trace comes back as it was written just when it began with no state or
  with a known facing.
-/

namespace BlockGrid

namespace Packed

variable {states : List Actor} {p : Packed}

theorem fits_of_number {n m : Int} (h : number (.int n) = .ok m) : fitsBits 32 n = true := by
  by_contra hn
  cases (number_int_of_not hn).symm.trans h

theorem fits_of_cell {c d : Cell} (h : cell (.ofCell c) = .ok d) : c.Fits := by
  obtain ⟨r, hr, hrest⟩ := exists_of_bind_eq_ok h
  obtain ⟨k, hk, -⟩ := exists_of_bind_eq_ok hrest
  exact ⟨fits_of_number hr, fits_of_number hk⟩

theorem isKnown_of_directionIndex {a : Actor} {n : Int}
    (h : directionIndex (.ofActor a) = .ok n) : Direction.isKnown a.direction = true := by
  have hfacing : (LooseActor.ofActor a).facing? = Direction.ofName? a.direction := rfl
  rw [directionIndex, hfacing] at h
  rw [Direction.isKnown]
  cases hd : Direction.ofName? a.direction with
  | none => rw [hd] at h; cases h
  | some d => rfl

theorem exists_of_column {α : Type} {f : LooseActor → Except PackError α} {ys : List α}
    (h : column f (states.map Snapshot.ofActor) = .ok ys) :
    ∀ a ∈ states, ∃ y, f (.ofActor a) = .ok y := by
  intro a ha
  obtain ⟨y, hy⟩ := exists_of_mapM_eq_ok h (.ofActor a) (List.mem_map_of_mem ha)
  obtain ⟨s, hs, hfs⟩ := exists_of_bind_eq_ok hy
  cases hs
  exact ⟨y, hfs⟩

/-- Cells are packed one after another, state after state. -/
theorem fits_of_cells {f : Actor → List Cell} {groups : List (List LooseCell)} {cells : List Cell}
    (hgroups : groups = states.map fun a => (f a).map LooseCell.ofCell)
    (h : groups.flatten.mapM cell = .ok cells) : ∀ a ∈ states, ∀ c ∈ f a, c.Fits := by
  intro a ha c hc
  have hgroup : (f a).map LooseCell.ofCell ∈ groups := by
    rw [hgroups]
    exact List.mem_map_of_mem ha
  have hmem : LooseCell.ofCell c ∈ groups.flatten :=
    List.mem_flatten.mpr ⟨_, hgroup, List.mem_map_of_mem hc⟩
  obtain ⟨d, hd⟩ := exists_of_mapM_eq_ok h _ hmem
  exact fits_of_cell hd

theorem packable_of_ofActors (h : ofActors states = .ok p) : ∀ a ∈ states, a.Packable := by
  obtain ⟨row, hrow, h⟩ := exists_of_bind_eq_ok h
  obtain ⟨col, hcol, h⟩ := exists_of_bind_eq_ok h
  obtain ⟨direction, hdirection, h⟩ := exists_of_bind_eq_ok h
  obtain ⟨stepCount, hstepCount, h⟩ := exists_of_bind_eq_ok h
  obtain ⟨bodies, hbodies, h⟩ := exists_of_bind_eq_ok h
  obtain ⟨collections, hcollections, h⟩ := exists_of_bind_eq_ok h
  obtain ⟨bodyCells, hbodyCells, h⟩ := exists_of_bind_eq_ok h
  obtain ⟨collectedCells, hcollectedCells, -⟩ := exists_of_bind_eq_ok h
  rw [column_ofActor (g := fun a => a.body.map LooseCell.ofCell) fun a _ => rfl] at hbodies
  rw [column_ofActor (g := fun a => a.collected.map LooseCell.ofCell) fun a _ => rfl]
    at hcollections
  have hbody := fits_of_cells (Except.ok.inj hbodies).symm hbodyCells
  have hcollected := fits_of_cells (Except.ok.inj hcollections).symm hcollectedCells
  intro a ha
  obtain ⟨r, hr⟩ := exists_of_column hrow a ha
  obtain ⟨k, hk⟩ := exists_of_column hcol a ha
  obtain ⟨d, hd⟩ := exists_of_column hdirection a ha
  obtain ⟨n, hn⟩ := exists_of_column hstepCount a ha
  exact ⟨⟨fits_of_number hr, fits_of_number hk, hbody a ha, hcollected a ha, fits_of_number hn⟩,
    isKnown_of_directionIndex hd⟩

theorem ofActors_eq_ok_iff : ofActors states = .ok p ↔
    (∀ a ∈ states, a.Packable) ∧ p = ofStates states := by
  constructor
  · intro h
    have hall := packable_of_ofActors h
    rw [ofActors_eq_ok hall] at h
    exact ⟨hall, (Except.ok.inj h).symm⟩
  · rintro ⟨hall, rfl⟩
    exact ofActors_eq_ok hall

end Packed

/-- What an entry holds of a trace. Nothing is asked of the state that the trace began in. -/
structure Trace.HeldBy (t : Trace Actor) (e : Entry) : Prop where
  challengeId : Store.label t.challengeId = .ok e.challengeId
  outcome : Store.label (Store.knownOutcome t.outcome) = .ok e.outcome
  success : Store.successNumber t.success = .ok e.success
  program : e.program.getD .null = t.program
  initial : e.initial = t.initial.map Actor.toJson
  columns : e.columns = .ofStates t.states
  packable : ∀ a ∈ t.states, a.Packable

namespace Store

variable {s : Store} {t : Trace Actor} {e : Entry} {name : String}

theorem held_of_entryOf (h : s.entryOf t.loose = .ok e) : t.HeldBy e := by
  obtain ⟨challengeId, hid, h⟩ := exists_of_bind_eq_ok h
  obtain ⟨outcome, houtcome, h⟩ := exists_of_bind_eq_ok h
  obtain ⟨success, hsuccess, h⟩ := exists_of_bind_eq_ok h
  obtain ⟨shown, -, h⟩ := exists_of_bind_eq_ok h
  obtain ⟨columns, hcolumns, h⟩ := exists_of_bind_eq_ok h
  obtain ⟨hpackable, rfl⟩ := Packed.ofActors_eq_ok_iff.mp (eq_ok_of_mapError hcolumns)
  have hentry : (⟨challengeId, outcome, success,
      if t.program.isNull then none else some t.program,
      (t.initial.map LooseActor.ofActor).map LooseActor.toJson, .ofStates t.states⟩ : Entry) = e := by
    by_cases hempty : t.loose.states.isEmpty = true
    · rw [if_pos hempty] at h
      exact Except.ok.inj h
    · rw [if_neg hempty] at h
      obtain ⟨_, -, h⟩ := exists_of_bind_eq_ok h
      exact Except.ok.inj h
  subst hentry
  refine ⟨hid, houtcome, hsuccess, ?_, ?_, rfl, hpackable⟩
  · show (if t.program.isNull then none else some t.program).getD .null = t.program
    cases t.program <;> rfl
  · show (t.initial.map LooseActor.ofActor).map LooseActor.toJson = t.initial.map Actor.toJson
    rw [Option.map_map]
    exact congrArg (t.initial.map ·) (funext Actor.toJson_loose)

/-! ## Entries stay -/

theorem find_of_extended {s' : Store} {more : List (String × Option Entry)}
    (h : s'.entries = s.entries ++ more) (hfind : s.find name = .ok e) : s'.find name = .ok e := by
  unfold find at hfind ⊢
  cases hsteps : stepsOf? name with
  | none => rw [hsteps] at hfind; cases hfind
  | some steps =>
    rw [hsteps] at hfind
    match steps with
    | [] => cases hfind
    | _ :: _ :: _ => cases hfind
    | [step] =>
      simp only [h, List.lookup_append] at hfind ⊢
      cases hlookup : s.entries.lookup (String.ofList step) with
      | none => rw [hlookup] at hfind; cases hfind
      | some entry =>
        rw [hlookup] at hfind
        exact hfind

theorem entries_perform (s : Store) (d : Deed Json LooseTrace) :
    ∃ more, (s.perform d).entries = s.entries ++ more := by
  cases d with
  | save config => exact ⟨[], (List.append_nil _).symm⟩
  | write t =>
    rw [perform]
    rcases s.write_cases t with ⟨e, -, h⟩ | ⟨found, -, ⟨-, h⟩ | ⟨-, ⟨e, -, h⟩ | ⟨e, -, h⟩⟩⟩
    · exact ⟨[], by rw [h, List.append_nil]⟩
    · exact ⟨[], by rw [h, List.append_nil]⟩
    · exact ⟨_, by rw [h]; rfl⟩
    · exact ⟨_, by rw [h]; rfl⟩

theorem find_deeds (more : List (Deed Json LooseTrace)) (h : s.find name = .ok e) :
    (more.foldl perform s).find name = .ok e := by
  induction more generalizing s with
  | nil => exact h
  | cons d more ih =>
    obtain ⟨added, hadded⟩ := s.entries_perform d
    exact ih (find_of_extended hadded h)

/-- The run that a write has added is found under its name. -/
theorem exists_of_write {t : LooseTrace} {found : List String}
    (h : (s.write t).1 = .ok (name, found)) :
    ∃ e, s.entryOf t = .ok e ∧ name = runName s.count ∧ (s.write t).2 = s.add e ∧
      (s.add e).find name = .ok e := by
  rcases s.write_cases t with ⟨e, -, hw⟩ | ⟨found, -, ⟨-, hw⟩ | ⟨hfree, ⟨e, -, hw⟩ | ⟨e, he, hw⟩⟩⟩
  · rw [hw] at h; cases h
  · rw [hw] at h; cases h
  · rw [hw] at h; cases h
  · rw [hw] at h ⊢
    cases h
    have hlookup : (s.add e).entries.lookup (runName s.count) = some (some e) := by
      show (s.entries ++ [(runName s.count, some e)]).lookup _ = _
      rw [List.lookup_append, show s.entries.lookup _ = none from hfree]
      simp
    exact ⟨e, he, rfl, rfl, by rw [find_runName, hlookup]⟩

/-! ## Reading -/

theorem readInitial_toJson (initial : Option Actor)
    (h : ∀ a, initial = some a → Direction.isKnown (lowercase a.direction) = true) :
    readInitial (initial.map Actor.toJson) = .ok (initial.map Actor.lowered) := by
  cases initial with
  | none => rfl
  | some a =>
    show ((Actor.ofJson a.toJson).map some).mapError ReadBackError.initial = _
    rw [Actor.ofJson_toJson_eq, if_pos (h a rfl)]
    rfl

theorem read_of_held (hfind : s.find name = .ok e) (hheld : t.HeldBy e)
    (h : ∀ a, t.initial = some a → Direction.isKnown (lowercase a.direction) = true) :
    s.read name = .ok ⟨.str e.challengeId, t.initial.map Actor.lowered, t.states,
      successOf e.success, .str e.outcome, t.program⟩ := by
  have hstates : e.columns.states = .ok t.states := by
    rw [hheld.columns]
    exact Packed.states_ofStates fun a ha => (hheld.packable a ha).direction
  rw [read, hfind]
  show (do
    let initial ← readInitial e.initial
    let states ← e.columns.states.mapError .unpack
    pure (⟨.str e.challengeId, initial, states, successOf e.success, .str e.outcome,
      e.program.getD .null⟩ : Trace Actor)) = _
  rw [hheld.initial, readInitial_toJson t.initial h, hstates, hheld.program]
  rfl

theorem read_of_unknown (hfind : s.find name = .ok e) (hheld : t.HeldBy e) {a : Actor}
    (ha : t.initial = some a) (h : Direction.isKnown (lowercase a.direction) = false) :
    s.read name = .error (.initial (.unknownDirection (lowercase a.direction))) := by
  have hinitial : readInitial e.initial =
      .error (.initial (.unknownDirection (lowercase a.direction))) := by
    rw [hheld.initial, ha]
    show ((Actor.ofJson a.toJson).map some).mapError ReadBackError.initial = _
    rw [Actor.ofJson_toJson_eq, if_neg (by rw [h]; exact Bool.false_ne_true)]
    rfl
  rw [read, hfind]
  show (do let initial ← readInitial e.initial; _) = _
  rw [hinitial]
  rfl

/-- How a trace that was written comes back under its name. -/
structure Loads (s : Store) (name : String) (t : Trace Actor) : Prop where
  lowered : (∀ a, t.initial = some a → Direction.isKnown (lowercase a.direction) = true) →
    ∃ r, s.fetch (.str name) = .ok r ∧ r.initial = t.initial.map Actor.lowered ∧
      r.states = t.states
  refused : ∀ a, t.initial = some a → Direction.isKnown (lowercase a.direction) = false →
    s.fetch (.str name) = .error (.initial (.unknownDirection (lowercase a.direction)))
  unchanged_iff : (∃ r, s.fetch (.str name) = .ok r ∧ r.initial = t.initial ∧
      r.states = t.states) ↔
    ∀ a, t.initial = some a → Direction.isKnown a.direction = true

theorem loads_of_held (hfind : s.find name = .ok e) (hheld : t.HeldBy e) : s.Loads name t where
  lowered h := ⟨_, read_of_held hfind hheld h, rfl, rfl⟩
  refused a ha h := read_of_unknown hfind hheld ha h
  unchanged_iff := by
    constructor
    · rintro ⟨r, hr, hinitial, -⟩ a ha
      rw [fetch_str] at hr
      cases hk : Direction.isKnown (lowercase a.direction) with
      | false =>
        rw [read_of_unknown hfind hheld ha hk] at hr
        cases hr
      | true =>
        rw [read_of_held hfind hheld (by rw [ha]; rintro b ⟨⟩; exact hk)] at hr
        cases hr
        have hsame : some a.lowered = some a := by
          rw [ha] at hinitial
          exact hinitial
        rw [Actor.isKnown_of_lowered (Option.some.inj hsame), hk]
    · intro h
      have hlowered : t.initial.map Actor.lowered = t.initial := by
        cases hi : t.initial with
        | none => rfl
        | some a => exact congrArg some (Actor.lowered_of_isKnown (h a hi))
      refine ⟨_, read_of_held hfind hheld fun a ha => ?_, hlowered, rfl⟩
      rw [← Actor.isKnown_of_lowered (Actor.lowered_of_isKnown (h a ha)), h a ha]

/-- What a write has accepted is read back as long as the reader of states knows the facing that the
run began with, with that facing in lower case. -/
theorem written_loads {found : List String}
    (h : (s.write t.loose).1 = .ok (name, found)) (more : List (Deed Json LooseTrace)) :
    (more.foldl perform (s.write t.loose).2).Loads name t := by
  obtain ⟨e, he, -, hwrite, hfind⟩ := exists_of_write h
  rw [hwrite]
  exact loads_of_held (find_deeds more hfind) (held_of_entryOf he)

/-- A run that was refused for the facing it was to begin with. -/
def refusedFacing (direction : String) : Trace Actor :=
  ⟨.str "field", some ⟨0, 0, direction, [], [], 0⟩, [], .bool false, .str "invalid_state", .arr []⟩

/-- Of a run without states nothing but its texts has to be stored. -/
theorem exists_entryOf (hstates : t.states = []) (hid : ∃ text, label t.challengeId = .ok text)
    (houtcome : ∃ text, label (knownOutcome t.outcome) = .ok text)
    (hsuccess : ∃ n text, successNumber t.success = .ok n ∧ label (.int n) = .ok text) :
    ∃ e, s.entryOf t.loose = .ok e := by
  obtain ⟨id, hid⟩ := hid
  obtain ⟨outcome, houtcome⟩ := houtcome
  obtain ⟨n, shown, hsuccess, hshown⟩ := hsuccess
  refine ⟨⟨id, outcome, n, if t.program.isNull then none else some t.program,
    (t.initial.map LooseActor.ofActor).map LooseActor.toJson, .ofStates []⟩, ?_⟩
  simp only [entryOf, Trace.loose, hid, houtcome, hsuccess, hstates, bind, Except.bind, hshown]
  rfl

theorem write_refusedFacing (direction : String) :
    (usual.write (refusedFacing direction).loose).1 = .ok ("run_0000", []) := by
  have hid : label (.str "field") = .ok "field" := label_of_plain (by decide)
  have houtcome : label (knownOutcome (.str "invalid_state")) = .ok "invalid_state" :=
    label_of_plain (by decide)
  obtain ⟨e, he⟩ : ∃ e, usual.entryOf (refusedFacing direction).loose = .ok e :=
    exists_entryOf rfl ⟨_, hid⟩ ⟨_, houtcome⟩ ⟨0, "0", rfl, rfl⟩
  have hfree : usual.Free := rfl
  rw [write_of_ok rfl hfree he]
  rfl

theorem written_loads_north :
    (usual.write (refusedFacing "north").loose).1 = .ok ("run_0000", []) ∧
      (usual.write (refusedFacing "north").loose).2.Loads "run_0000"
        (refusedFacing "north") :=
  ⟨write_refusedFacing "north", written_loads (write_refusedFacing "north") []⟩

/-- Not all that is accepted is read back: of two runs that were refused for their facing one cannot
be read, and the other one has begun with another facing. -/
theorem refusedFacing_lost :
    (usual.write (refusedFacing "north").loose).1 = .ok ("run_0000", []) ∧
      (usual.write (refusedFacing "north").loose).2.fetch (.str "run_0000") =
        .error (.initial (.unknownDirection "north")) ∧
      (usual.write (refusedFacing "RIGHT").loose).1 = .ok ("run_0000", []) ∧
      ∃ r, (usual.write (refusedFacing "RIGHT").loose).2.fetch (.str "run_0000") = .ok r ∧
        r.initial = some ⟨0, 0, "right", [], [], 0⟩ ∧
        r.initial ≠ (refusedFacing "RIGHT").initial := by
  have hnorth := write_refusedFacing "north"
  have hright := write_refusedFacing "RIGHT"
  have hlower : lowercase "north" = "north" := lowercase_word (by decide)
  have hcapitals : Text.Cased "right".toList "RIGHT".toList := by simp [Text.Cased]
  have hlower' : lowercase "RIGHT" = "right" := lowercase_of_cased hcapitals (by decide)
  obtain ⟨e, he, -, hwrite, hfind⟩ := exists_of_write hnorth
  obtain ⟨e', he', -, hwrite', hfind'⟩ := exists_of_write hright
  have hread := read_of_unknown hfind (held_of_entryOf he) rfl (by rw [hlower]; rfl)
  have hread' := read_of_held hfind' (held_of_entryOf he') (by rintro a ⟨⟩; rw [hlower']; rfl)
  rw [hlower] at hread
  rw [hwrite, hwrite', fetch_str, fetch_str]
  have hinitial : (refusedFacing "RIGHT").initial.map Actor.lowered =
      some ⟨0, 0, "right", [], [], 0⟩ := by
    show some (⟨0, 0, lowercase "RIGHT", [], [], 0⟩ : Actor) = _
    rw [hlower']
  refine ⟨hnorth, hread, hright, _, hread', hinitial, ?_⟩
  show (refusedFacing "RIGHT").initial.map Actor.lowered ≠ _
  rw [hinitial]
  decide

end Store

end BlockGrid
