import BlockGrid.Proofs.Trace.Warnings
import BlockGrid.Trace.Attribute

/-!
# BlockGrid.Proofs.Trace.RoundTrip

Sessions in which traces are written and descriptions saved, read back.

* `Deed.encode`        — a deed as the store takes it: descriptions as JSON, states held loosely.
* `Deed.Admissible`    — what a store asks of a session, besides traces that can be stored.
* `Numbered.of_writes` — when every write has succeeded, the runs are the traces, in order.
* `answers_eq_ok`      — in an admissible session every write succeeds.
* `session_reads_back` — each trace is read back under its number and its name, and nothing under
  any other number.
-/

namespace BlockGrid

namespace Deed

def encode : Deed Attribute (Trace Actor) → Except AttributeError (Deed Json LooseTrace)
  | .save config => config.toJson.map .save
  | .write t => .ok (.write t.loose)

/-- The traces of a session, in order. -/
def traces {κ τ : Type} (ds : List (Deed κ τ)) : List τ := ds.filterMap trace?

/-- The descriptions of a session, in order. -/
def configs {κ τ : Type} (ds : List (Deed κ τ)) : List κ := ds.filterMap config?

/-- Texts have no zero character in them, states can be compressed, and sides that are compared
with are numbers. -/
structure Admissible (options : StoreOptions) (ds : List (Deed Attribute (Trace Actor))) : Prop where
  challengeIds : ∀ t ∈ traces ds, '\x00' ∉ t.challengeId.text.toList
  outcomes : ∀ t ∈ traces ds, '\x00' ∉ t.outcome.text.toList
  compression : (∃ t ∈ traces ds, t.states ≠ []) → options.compression.check = .ok ()
  sized : options.validates = true →
    ∀ config ∈ configs ds, ∀ v, config.toJson = .ok v → v.isSized = true

section Encode

variable {ds : List (Deed Attribute (Trace Actor))} {es : List (Deed Json LooseTrace)}

/-- Deeds are encoded one by one. -/
theorem encode_cons {d : Deed Attribute (Trace Actor)} (h : (d :: ds).mapM encode = .ok es) :
    ∃ e rest, d.encode = .ok e ∧ ds.mapM encode = .ok rest ∧ es = e :: rest := by
  rw [List.mapM_cons] at h
  cases hd : d.encode with
  | error e => rw [hd] at h; cases h
  | ok e =>
    cases hrest : ds.mapM encode with
    | error e' => rw [hd, hrest] at h; cases h
    | ok rest =>
      rw [hd, hrest] at h
      cases h
      exact ⟨e, rest, rfl, rfl, rfl⟩

theorem encode_save {config : Attribute} {e : Deed Json LooseTrace}
    (h : (save config).encode = .ok e) : ∃ v, config.toJson = .ok v ∧ e = .save v := by
  cases hv : config.toJson with
  | error e' => rw [encode, hv] at h; cases h
  | ok v =>
    rw [encode, hv] at h
    cases h
    exact ⟨v, rfl, rfl⟩

theorem encode_write {t : Trace Actor} {e : Deed Json LooseTrace}
    (h : (write t : Deed Attribute (Trace Actor)).encode = .ok e) : e = .write t.loose :=
  (Except.ok.inj h).symm

theorem Admissible.tail {options : StoreOptions} {d : Deed Attribute (Trace Actor)}
    (h : Admissible options (d :: ds)) : Admissible options ds := by
  have htraces : ∀ t ∈ traces ds, t ∈ traces (d :: ds) := by
    intro t ht
    cases d with
    | save config => exact ht
    | write t' => exact List.mem_cons_of_mem t' ht
  have hconfigs : ∀ c ∈ configs ds, c ∈ configs (d :: ds) := by
    intro c hc
    cases d with
    | save config => exact List.mem_cons_of_mem config hc
    | write t' => exact hc
  refine ⟨fun t ht => h.challengeIds t (htraces t ht), fun t ht => h.outcomes t (htraces t ht), ?_,
    fun hv c hc => h.sized hv c (hconfigs c hc)⟩
  rintro ⟨t, ht, hstates⟩
  exact h.compression ⟨t, htraces t ht, hstates⟩

end Encode

end Deed

namespace Store

open Deed

variable {s : Store} {t : Trace Actor} {runs : List Entry} {ds : List (Deed Attribute (Trace Actor))}
  {es : List (Deed Json LooseTrace)}

/-- A write is about entries only. -/
theorem write_frame (s : Store) (t : LooseTrace) :
    (s.write t).2.options = s.options ∧ (s.write t).2.world = s.world := by
  rcases s.write_cases t with ⟨e, -, h⟩ | ⟨found, -, ⟨-, h⟩ | ⟨-, ⟨e, -, h⟩ | ⟨e, -, h⟩⟩⟩
  · rw [h]; exact ⟨rfl, rfl⟩
  · rw [h]; exact ⟨rfl, rfl⟩
  · rw [h]; exact ⟨rfl, rfl⟩
  · rw [h]; exact ⟨rfl, rfl⟩

/-! ## Sessions in which every write succeeds -/

/-- The entry of a storable trace that was written. -/
theorem Numbered.write_entry (h : s.Numbered runs false) (ht : t.Storable)
    {r : String × List String} (hr : (s.write t.loose).1 = .ok r) :
    r.1 = runName runs.length ∧ (s.write t.loose).2.Numbered (runs ++ [t.entry]) false := by
  obtain ⟨-, hname, e, he, hn⟩ := h.write_ok hr
  have hentry : e = t.entry := by
    rw [entryOf_eq ht] at he
    cases hadmission : s.admission t with
    | error e' => rw [hadmission] at he; cases he
    | ok _ => rw [hadmission] at he; exact (Except.ok.inj he).symm
  rw [hentry] at hn
  exact ⟨hname, hn⟩

theorem Numbered.of_writes (h : s.Numbered runs false) (hes : ds.mapM encode = .ok es)
    (hds : ∀ t ∈ traces ds, t.Storable) (hok : ∀ r ∈ s.answers es, ∃ a, r = .ok a) :
    (es.foldl perform s).Numbered (runs ++ (traces ds).map Trace.entry) false ∧
      ∀ i < (traces ds).length,
        ∃ found, (s.answers es)[i]? = some (.ok (runName (runs.length + i : Nat), found)) := by
  induction ds generalizing s runs es with
  | nil =>
    cases hes
    refine ⟨?_, fun i hi => absurd hi (Nat.not_lt_zero i)⟩
    show s.Numbered (runs ++ []) false
    rw [List.append_nil]
    exact h
  | cons d ds ih =>
    obtain ⟨e, rest, hd, hrest, rfl⟩ := encode_cons hes
    cases d with
    | save config =>
      obtain ⟨v, -, rfl⟩ := encode_save hd
      have hrun := ih (h.saveWorld v) hrest hds hok
      exact hrun
    | write t =>
      cases encode_write hd
      have htail : ∀ t' ∈ traces ds, t'.Storable := fun t' ht' => hds t' (List.mem_cons_of_mem t ht')
      obtain ⟨r, hr⟩ := hok _ List.mem_cons_self
      obtain ⟨hname, hwritten⟩ := h.write_entry (hds t List.mem_cons_self) hr
      obtain ⟨hruns, hnames⟩ := ih hwritten hrest htail fun r' hr' =>
        hok r' (List.mem_cons_of_mem _ hr')
      constructor
      · show ((rest.foldl perform (s.write t.loose).2).Numbered
          (runs ++ (t.entry :: (traces ds).map Trace.entry)) false)
        rw [List.append_cons]
        exact hruns
      · intro i hi
        cases i with
        | zero =>
          refine ⟨r.2, ?_⟩
          show some (s.write t.loose).1 = _
          rw [hr, Nat.add_zero, ← hname]
        | succ i =>
          obtain ⟨found, hfound⟩ := hnames i (Nat.lt_of_succ_lt_succ hi)
          refine ⟨found, ?_⟩
          show ((s.write t.loose).2.answers rest)[i]? = _
          rw [hfound, List.length_append, List.length_singleton, Nat.add_right_comm, Nat.add_assoc]

theorem admission_eq_ok (ht : t.Storable) (hid : '\x00' ∉ t.challengeId.text.toList)
    (houtcome : '\x00' ∉ t.outcome.text.toList)
    (hcompression : t.states ≠ [] → s.options.compression.check = .ok ()) : s.admission t = .ok () := by
  obtain ⟨id, hidText⟩ := ht.challengeId
  obtain ⟨outcome, -, hotext⟩ := ht.outcome
  rw [hidText, Json.text] at hid
  rw [hotext, Json.text] at houtcome
  rw [admission, hidText, hotext, label_of_plain hid, label_of_plain houtcome]
  cases hstates : t.states with
  | nil => rfl
  | cons a rest =>
    rw [hcompression (by rw [hstates]; exact List.cons_ne_nil a rest)]
    rfl

/-- A trace that is admitted is there under the next name. -/
theorem Free.write_admitted (h : s.Free) (ht : t.Storable) (hadmission : s.admission t = .ok ())
    {found : List String} (hfound : s.warnings t.loose = .ok found) :
    s.write t.loose = (.ok (runName s.count, found), s.add t.entry) := by
  refine write_of_ok hfound h ?_
  rw [entryOf_eq ht, hadmission]
  rfl

theorem answers_eq_ok (h : s.Numbered runs false) (hes : ds.mapM encode = .ok es)
    (hds : ∀ t ∈ traces ds, t.Storable) (hadmissible : Admissible s.options ds)
    (hworld : s.options.validates = true → ∀ config, s.world = some config → config.isSized = true) :
    ∀ r ∈ s.answers es, ∃ a, r = .ok a := by
  induction ds generalizing s runs es with
  | nil =>
    cases hes
    exact fun r hr => nomatch hr
  | cons d ds ih =>
    obtain ⟨e, rest, hd, hrest, rfl⟩ := encode_cons hes
    cases d with
    | save config =>
      obtain ⟨v, hv, rfl⟩ := encode_save hd
      show ∀ r ∈ (s.saveWorld v).answers rest, _
      refine ih (h.saveWorld v) hrest hds hadmissible.tail ?_
      intro hvalid config' hc
      cases hc
      exact hadmissible.sized hvalid config List.mem_cons_self v hv
    | write t =>
      cases encode_write hd
      have ht : t.Storable := hds t List.mem_cons_self
      have hadmission : s.admission t = .ok () :=
        admission_eq_ok ht (hadmissible.challengeIds t List.mem_cons_self)
          (hadmissible.outcomes t List.mem_cons_self)
          fun hne => hadmissible.compression ⟨t, List.mem_cons_self, hne⟩
      obtain ⟨found, hfound⟩ := warnings_eq_ok ht hworld
      have hwrite := (h.free_iff.mpr rfl).write_admitted ht hadmission hfound
      intro r hr
      rcases List.mem_cons.mp hr with rfl | hr
      · exact ⟨_, congrArg Prod.fst hwrite⟩
      · rw [hwrite] at hr
        exact ih (h.add t.entry) hrest (fun t' ht' => hds t' (List.mem_cons_of_mem t ht'))
          hadmissible.tail hworld r hr

/-! ## Reading -/

/-- The description saved last is the one that counts. -/
theorem world_of_session (s : Store) (hes : ds.mapM encode = .ok es) :
    (configs ds = [] → (es.foldl perform s).world = s.world) ∧
      ∀ config, (configs ds).getLast? = some config →
        ∃ v, config.toJson = .ok v ∧ (es.foldl perform s).world = some v := by
  induction ds generalizing s es with
  | nil =>
    cases hes
    exact ⟨fun _ => rfl, fun config hc => nomatch hc⟩
  | cons d ds ih =>
    obtain ⟨e, rest, hd, hrest, rfl⟩ := encode_cons hes
    cases d with
    | save config =>
      obtain ⟨v, hv, rfl⟩ := encode_save hd
      obtain ⟨hnone, hlast⟩ := ih (s.saveWorld v) hrest
      refine ⟨fun hc => (nomatch hc), fun last hc => ?_⟩
      rw [show configs (save config :: ds) = config :: configs ds from rfl,
        List.getLast?_cons] at hc
      cases hl : (configs ds).getLast? with
      | none =>
        rw [hl] at hc
        cases hc
        exact ⟨v, hv, hnone (List.getLast?_eq_none_iff.mp hl)⟩
      | some last' =>
        rw [hl] at hc
        cases hc
        exact hlast last' hl
    | write t =>
      cases encode_write hd
      obtain ⟨hnone, hlast⟩ := ih (s.write t.loose).2 hrest
      exact ⟨fun hc => (hnone hc).trans (s.write_frame _).2, hlast⟩

/-- The head cells under a number or a name. -/
def fetchTrajectory (s : Store) (v : Json) : Except ReadBackError (List Cell) := do
  let name ← nameOf v
  s.trajectory name

theorem fetchTrajectory_int (s : Store) (n : Int) :
    s.fetchTrajectory (.int n) = s.trajectory (runName n) := rfl

/-- What is read from a store with these traces in it, of which `answers` are the names. -/
structure Returns (s : Store) (ts : List (Trace Actor))
    (answers : List (Except WriteError (String × List String))) : Prop where
  run : ∀ i t, ts[i]? = some t → ∃ name found, answers[i]? = some (.ok (name, found)) ∧
    s.fetch (.nat i) = .ok t ∧ s.fetch (.str name) = .ok t ∧
    s.fetchTrajectory (.nat i) = .ok (t.states.map Actor.position)
  other : ∀ i : Int, ¬ (0 ≤ i ∧ i < ts.length) →
    s.fetch (.int i) = .error (.notFound (runName i))
  total : ∀ session, (s.metadata session).get? "total_runs" = some (.nat ts.length)

theorem Numbered.returns {ts : List (Trace Actor)}
    {answers : List (Except WriteError (String × List String))}
    (h : s.Numbered (ts.map Trace.entry) false) (hts : ∀ t ∈ ts, t.Storable)
    (hnames : ∀ i < ts.length, ∃ found, answers[i]? = some (.ok (runName i, found))) :
    s.Returns ts answers where
  run i t ht := by
    obtain ⟨hi, hget⟩ := List.getElem?_eq_some_iff.mp ht
    obtain ⟨found, hfound⟩ := hnames i hi
    have hfind : s.find (runName i) = .ok t.entry := by
      refine h.find_run ?_
      rw [List.getElem?_map, ht]
      rfl
    have hread : s.read (runName i) = .ok t := by
      refine read_of_find (hts t ?_) hfind
      rw [← hget]
      exact List.getElem_mem hi
    refine ⟨runName i, found, hfound, ?_, ?_, ?_⟩
    · rw [Json.nat, fetch_int, hread]
    · rw [fetch_str, hread]
    · rw [Json.nat, fetchTrajectory_int, trajectory_of_find hfind]
  other i hi := by
    have hfind : s.find (runName i) = .error (.notFound (runName i)) := by
      refine h.find_other ?_
      rw [List.length_map]
      exact hi
    rw [fetch_int, read, hfind]
    rfl
  total session := by
    show some (Json.nat s.count) = _
    rw [h.count, List.length_map]

theorem session_reads_back {options : StoreOptions} (hes : ds.mapM encode = .ok es)
    (hds : ∀ t ∈ traces ds, t.Storable) :
    (Admissible options ds → ∀ r ∈ (empty options).answers es, ∃ a, r = .ok a) ∧
      ((∀ r ∈ (empty options).answers es, ∃ a, r = .ok a) →
        (after options es).Returns (traces ds) ((empty options).answers es) ∧
        (configs ds = [] → (after options es).worldConfig = .obj []) ∧
        ∀ config, (configs ds).getLast? = some config →
          config.toJson = .ok (after options es).worldConfig) := by
  have hempty := numbered_empty options
  constructor
  · intro hadmissible
    exact answers_eq_ok hempty hes hds hadmissible fun _ config hc => nomatch hc
  · intro hok
    obtain ⟨hruns, hnames⟩ := hempty.of_writes hes hds hok
    obtain ⟨hnone, hlast⟩ := world_of_session (empty options) hes
    refine ⟨hruns.returns hds fun i hi => ?_, fun hc => ?_, fun config hc => ?_⟩
    · obtain ⟨found, hfound⟩ := hnames i hi
      rw [List.length_nil, Nat.zero_add] at hfound
      exact ⟨found, hfound⟩
    · rw [worldConfig, after, hnone hc]
      rfl
    · obtain ⟨v, hv, hworld⟩ := hlast config hc
      rw [worldConfig, after, hworld]
      exact hv

/-- A run on two cells, the world it is in, and a run that was stopped before it did anything. -/
def twoRuns : List (Deed Attribute (Trace Actor)) :=
  [.write ⟨.str "pair", some ⟨0, 0, "right", [], [], 0⟩,
      [⟨0, 1, "right", [(0, 0)], [(0, 1)], 1⟩, ⟨0, 1, "down", [(0, 0)], [(0, 1)], 1⟩],
      .bool true, .str "success", .arr [.obj [("cmd", .str "move"), ("value", .int 1)]]⟩,
    .save (.obj [("rows", .int 1), ("cols", .word 2), ("goals", .set [.int 1, .int 0])]),
    .write ⟨.str "pair", none, [], .null, .str "cancelled", .null⟩]

theorem storable_twoRuns : ∀ t ∈ traces twoRuns, t.Storable := by
  intro t ht
  rcases List.mem_cons.mp ht with rfl | ht
  · refine ⟨⟨_, rfl⟩, ?_, ?_, .inr ⟨_, rfl⟩, ⟨_, by decide, rfl⟩⟩
    · rintro a ⟨⟩
      rfl
    · intro a ha
      rcases List.mem_cons.mp ha with rfl | ha
      · exact ⟨⟨by decide, by decide, by decide, by decide, by decide⟩, rfl⟩
      · cases List.mem_singleton.mp ha
        exact ⟨⟨by decide, by decide, by decide, by decide, by decide⟩, rfl⟩
  · cases List.mem_singleton.mp ht
    exact ⟨⟨_, rfl⟩, nofun, nofun, .inl rfl, ⟨_, by decide, rfl⟩⟩

theorem admissible_twoRuns : Admissible ⟨true, Compression.default⟩ twoRuns := by
  refine ⟨by decide, by decide, fun _ => rfl, fun _ config hc v hv => ?_⟩
  cases List.mem_singleton.mp hc
  cases hv
  decide

theorem session_reads_back_twoRuns : ∃ es, twoRuns.mapM encode = .ok es ∧
    (after ⟨true, Compression.default⟩ es).Returns (traces twoRuns)
      ((empty ⟨true, Compression.default⟩).answers es) ∧
    (after ⟨true, Compression.default⟩ es).worldConfig =
      .obj [("rows", .int 1), ("cols", .int 2), ("goals", .arr [.int 0, .int 1])] := by
  refine ⟨_, rfl, ?_⟩
  obtain ⟨hok, hreads⟩ := @session_reads_back twoRuns _ ⟨true, Compression.default⟩ rfl
    storable_twoRuns
  obtain ⟨hreturns, -, hworld⟩ := hreads (hok admissible_twoRuns)
  exact ⟨hreturns, (Except.ok.inj (hworld _ rfl)).symm⟩

end Store

end BlockGrid
