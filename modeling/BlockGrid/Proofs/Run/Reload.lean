import BlockGrid.Proofs.Grid.Footsteps
import BlockGrid.Proofs.Grid.Rebuild
import BlockGrid.Proofs.Run.Replay
import BlockGrid.Proofs.Trace.Failures
import BlockGrid.Proofs.Tree.Blocks

/-!
# BlockGrid.Proofs.Run.Reload

A replay that was stored, and made once more from what is stored.

* `Replay.Fits`      — what a store asks of a replay.
* `Store.Repeats`    — the replay of a stored program on the board that a store describes.
* `write_labelled`   — a run is stored with the text of its id, if the id can be noted.
* `result_bare`      — the bare program comes to the same as the program; `path_bare`, on the same
  way.
* `replay_reloaded`  — a replay and the one made from what was stored of it agree, whatever plain
  tree was read and wherever its run stopped.
-/

namespace BlockGrid

namespace Replay

/-- The id can be noted, the states can be packed and compressed. -/
structure Fits (s : Store) (r : Replay) : Prop where
  id : ∃ text, Store.label r.trace.challengeId = .ok text
  states : ∀ a ∈ r.trace.states, a.Fits
  compression : r.trace.states ≠ [] → s.options.compression.check = .ok ()

/-- The same states, the same verdict and the same outcome. -/
structure Agrees (r r' : Replay) : Prop where
  states : r'.trace.states = r.trace.states
  success : r'.success = r.success
  verdict : r'.trace.success = r.trace.success
  outcome : r'.trace.outcome = r.trace.outcome

end Replay

/-- A trace under the text of its id. -/
def Trace.labelled {σ ι : Type} (t : Trace σ ι) (text : String) : Trace σ ι :=
  { t with challengeId := .str text }

namespace Store

variable {s : Store} {t : Trace Actor}

/-- The program of a run, once more, on the board of the description without its kind. -/
def Repeats (s : Store) (n : Nat) (verbose : Bool) (r : Replay) : Prop :=
  ∃ t entries w, s.fetch (.nat n) = .ok t ∧ s.worldConfig = .obj entries ∧
    World.ofArguments (Entries.erase "variant" entries) = .ok w ∧
    w.replay (.ofJson t.program) verbose = .ok r

/-- An id stands in an entry as its text and matters for nothing else. -/
theorem entryOf_label {t : LooseTrace} {text : String} (h : label t.challengeId = .ok text) :
    s.entryOf t = (s.entryOf (t.labelled "")).map fun e => { e with challengeId := text } := by
  have hempty : label (.str "") = .ok "" := label_of_plain List.not_mem_nil
  simp only [entryOf, Trace.labelled, h, hempty, bind, Except.bind]
  cases label (knownOutcome t.outcome) with
  | error e => rfl
  | ok outcome =>
    cases successNumber t.success with
    | error e => rfl
    | ok success =>
      simp only
      cases label (.int success) with
      | error e => rfl
      | ok _ =>
        cases Packed.ofSnapshots t.states with
        | error e => rfl
        | ok columns =>
          by_cases hstates : t.states.isEmpty = true
          · simp only [hstates, if_true]
            rfl
          · simp only [hstates]
            cases s.options.compression.check <;> rfl

theorem Free.write_labelled (h : s.Free) {text : String} (ht : (t.labelled text).Storable)
    (hid : label t.challengeId = .ok text) (houtcome : '\x00' ∉ t.outcome.text.toList)
    (hcompression : t.states ≠ [] → s.options.compression.check = .ok ())
    {found : List String} (hfound : s.warnings t.loose = .ok found) :
    s.write t.loose = (.ok (runName s.count, found), s.add (t.labelled text).entry) := by
  have ht' : (t.labelled "").Storable := ⟨⟨"", rfl⟩, ht.initial, ht.states, ht.success, ht.outcome⟩
  have hadmission : s.admission (t.labelled "") = .ok () :=
    admission_eq_ok ht' List.not_mem_nil houtcome hcompression
  have hentry : s.entryOf (t.labelled "").loose = .ok (t.labelled "").entry := by
    rw [entryOf_eq ht', hadmission]
    rfl
  refine write_of_ok hfound h ?_
  rw [entryOf_label (t := t.loose) hid]
  show ((s.entryOf (t.labelled "").loose).map _ : Except WriteError Entry) = _
  rw [hentry]
  rfl

end Store

theorem Outcome.name_ne_empty (o : Outcome) : o.name ≠ "" := by cases o <;> decide

theorem Outcome.name_plain (o : Outcome) : '\x00' ∉ o.name.toList := by cases o <;> decide

namespace World

open Store

variable {w : World} {l : Layout} {p : Program Tree} {s : Store} {v : Json}

theorem isSized_config (w : World) : w.config.isSized = true := rfl

theorem result_bare (w : World) (p : Program Tree) : w.result (Program.bare p) = w.result p := by
  have hmotions : Program.motions (Program.bare p) = p.motions := Program.motions_bare p
  have hempty : (Program.bare p).isEmpty = p.isEmpty := by cases p <;> rfl
  rw [result, result, hmotions, hempty]

theorem path_bare (w : World) (p : Program Tree) :
    (w.record (Program.bare p)).states = (w.record p).states :=
  congrArg (w.path w.reset) (Program.motions_bare p)

/-- What can stand in the way of storing a replay is its id, a number or the compression. -/
theorem storable_record {text : String} (h : ∀ a ∈ (w.record p).states, a.Fits) :
    ((w.record p).labelled text).Storable where
  challengeId := ⟨text, rfl⟩
  initial a ha := by
    cases ha
    exact w.facing.isKnown_name
  states a ha := by
    have hcontains : w.contains a = true := forall_path contains_of_next? w.contains_reset _ a ha
    rw [contains, Bool.and_eq_true] at hcontains
    exact ⟨h a ha, hcontains.1⟩
  success := .inr ⟨_, rfl⟩
  outcome := ⟨_, Outcome.name_ne_empty _, rfl⟩

/-- A replay that fits is there under the next name, whatever the description was before. -/
theorem write_record {text : String} (hfree : s.Free)
    (hid : label (w.record p).challengeId = .ok text) (hstates : ∀ a ∈ (w.record p).states, a.Fits)
    (hcompression : (w.record p).states ≠ [] → s.options.compression.check = .ok ()) :
    ∃ found, (s.saveWorld w.config).write (w.record p).loose =
      (.ok (runName s.count, found),
        (s.saveWorld w.config).add ((w.record p).labelled text).entry) := by
  have hstorable : ((w.record p).labelled text).Storable := storable_record hstates
  have hsized : ∀ config, (s.saveWorld w.config).world = some config → config.isSized = true := by
    intro config hc
    cases hc
    exact w.isSized_config
  obtain ⟨found, hfound⟩ := warnings_eq_ok hstorable fun _ => hsized
  have hsaved : (s.saveWorld w.config).Free := hfree
  -- The check does not look at the id, so `hfound` is about the record as well.
  exact ⟨found, hsaved.write_labelled hstorable hid (Outcome.name_plain _) hcompression hfound⟩

/-- The replay of a program and that of the bare one. -/
theorem agrees_of_record {r again : Replay} (htrace : r.trace = w.record p)
    (hsuccess : r.success = (w.result p == .success))
    (htrace' : again.trace = w.record (Program.bare p))
    (hsuccess' : again.success = (w.result (Program.bare p) == .success)) : r.Agrees again := by
  have hresult := w.result_bare p
  constructor
  · rw [htrace, htrace']
    exact w.path_bare p
  · rw [hsuccess, hsuccess', hresult]
  · rw [htrace, htrace', record, record, hresult]
  · rw [htrace, htrace', record, record, hresult]

theorem replay_reloaded (hw : place l = .ok w) (ht : Program.ofTree (.ofJson v) = .ok p)
    (hfree : s.Free) (verbose verbose' : Bool) :
    ∃ r, w.replay (.ofJson v) verbose = .ok r ∧
      (r.Fits s → ∃ found again,
        ((s.saveWorld w.config).write r.trace.loose).1 =
          .ok (runName s.count, found) ∧
        ((s.saveWorld w.config).write r.trace.loose).2.Repeats s.count verbose' again ∧
        r.Agrees again) := by
  have hsound : Program.isSound p = true := Program.isSound_of_ofTree ht
  have hreg : Program.isRegular p = true := Program.isRegular_of_isSound p hsound
  have hreg' : Program.isRegular (Program.bare p) = true := by
    rw [Program.isRegular_bare]
    exact hreg
  obtain ⟨r, hreplay, htrace, hsuccess, -⟩ := w.replay_eq ht hreg verbose
  obtain ⟨again, hagain, htrace', hsuccess', -⟩ :=
    w.replay_eq (Program.ofTree_toJsonList hsound) hreg' verbose'
  have hagrees : r.Agrees again := agrees_of_record htrace hsuccess htrace' hsuccess'
  obtain ⟨entries, hconfig, hboard⟩ := ofArguments_config hw
  refine ⟨r, hreplay, fun hfits => ?_⟩
  obtain ⟨⟨text, hid⟩, hstates, hcompression⟩ := hfits
  rw [htrace] at hid hstates hcompression ⊢
  obtain ⟨found, hwrite⟩ := write_record hfree hid hstates hcompression
  have hsaved : (s.saveWorld w.config).Free := hfree
  have hstorable : ((w.record p).labelled text).Storable := storable_record hstates
  have hloaded := fetch_added hsaved hstorable
  rw [hwrite]
  exact ⟨found, again, rfl, ⟨_, entries, w, hloaded, hconfig, hboard, hagain⟩, hagrees⟩

/-- What there is to collect lies between the start and an obstacle. -/
def nook : World where
  challengeId := .str "nook"
  rows := 1
  cols := 3
  obstacles := [(0, 2)]
  goal := none
  collectibles := [(0, 1)]
  start := (0, 0)
  facing := .right
  obstacles_inside := rfl
  one_objective := .inl rfl
  start_open := rfl
  goal_open := rfl
  collectibles_open := rfl
  collectibles_nodup := List.nodup_singleton _

/-- Something that is not known, and a step too many. -/
def blinkAndMove : Json :=
  .arr [.obj [("cmd", .str "blink")], .obj [("cmd", .str "move"), ("value", .int 2)]]

theorem ofTree_blinkAndMove : Program.ofTree (.ofJson blinkAndMove) =
    .ok [.act (.unrecognized (.obj [("cmd", .str "blink")]) "unknown command 'blink'"),
      .act (.move 2)] := by
  have htag : (Tree.str "blink").keyword = "blink" :=
    Tree.keyword_word (by decide)
  have hblink : Tree.read (.obj [("cmd", .str "blink")]) =
      .ok (.act (.unrecognized (.obj [("cmd", .str "blink")]) "unknown command 'blink'")) := by
    refine Tree.read_of_done ?_
    show Tree.readTagged _ (Tree.str "blink").keyword (Tree.str "blink").quotedKeyword _ = _
    rw [Tree.quotedKeyword_str, htag]
    rfl
  have hmove : Tree.read (.obj [("cmd", .str "move"), ("value", .int 2)]) = .ok (.act (.move 2)) :=
    Tree.read_move (by decide)
  rw [Program.ofTree_eq]
  show Tree.readAll [.obj [("cmd", .str "blink")], .obj [("cmd", .str "move"), ("value", .int 2)]] = _
  rw [Tree.readAll_of_ok hblink, Tree.readAll_of_ok hmove, Tree.readAll_nil]
  rfl

theorem replay_reloaded_nook : ∃ r, nook.replay (.ofJson blinkAndMove) true = .ok r ∧
    r.trace.states = [⟨0, 1, "right", [(0, 0)], [(0, 1)], 1⟩] ∧ r.trace.outcome = .str "illegal_move" ∧
    ∃ found again,
      ((usual.saveWorld nook.config).write r.trace.loose).1 = .ok ("run_0000", found) ∧
      ((usual.saveWorld nook.config).write r.trace.loose).2.Repeats 0 false again ∧
      r.Agrees again := by
  have hplace : place nook.layout = .ok nook := place_of_ascending rfl rfl
  have hfree : usual.Free := rfl
  obtain ⟨r, hreplay, hstored⟩ := replay_reloaded hplace ofTree_blinkAndMove hfree true false
  obtain ⟨r', hreplay', htrace, -⟩ := nook.replay_eq ofTree_blinkAndMove rfl true
  obtain rfl : r' = r := Except.ok.inj (hreplay'.symm.trans hreplay)
  have hstates : r'.trace.states = [⟨0, 1, "right", [(0, 0)], [(0, 1)], 1⟩] := by
    rw [htrace]
    decide
  have hoptions : usual.options.compression.check = .ok () := rfl
  refine ⟨r', hreplay, hstates, ?_, hstored ⟨⟨"nook", ?_⟩, ?_, fun _ => hoptions⟩⟩
  · rw [htrace]
    exact congrArg (Json.str ∘ Outcome.name) (show nook.result _ = .illegalMove by decide)
  · rw [htrace]
    exact label_of_plain (by decide)
  · intro a ha
    rw [hstates] at ha
    cases List.mem_singleton.mp ha
    exact ⟨by decide, by decide, by decide, by decide, by decide⟩

end World

end BlockGrid
