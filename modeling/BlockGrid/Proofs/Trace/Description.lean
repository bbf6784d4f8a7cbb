import BlockGrid.Proofs.Grid.Playable
import BlockGrid.Proofs.Json.RoundTrip
import BlockGrid.Trace.Attribute

/-!
# BlockGrid.Proofs.Trace.Description

A board comes back from its description, directly and from the text that is stored of it.

* `Attribute.ofJson`   — values that need no other form to be stored. `toJson_ofJson`.
* `World.stored`    — the description as it is stored, with tuples for cells; `toJson_stored`.
* `exists_place`       — a board of named arguments, of whatever kind they are, is that of a layout.
* `rebuilt_from_description` — the board of the description is the board that was described.
-/

namespace BlockGrid

namespace Attribute

mutual

def ofJson : Json → Attribute
  | .null => .null
  | .bool b => .bool b
  | .int n => .int n
  | .float x => .float x
  | .str s => .str s
  | .torn s h rest => .torn s h rest
  | .arr items => .list (ofJsonAll items)
  | .obj entries => .obj (ofJsonEntries entries)

def ofJsonAll : List Json → List Attribute
  | [] => []
  | v :: vs => ofJson v :: ofJsonAll vs

def ofJsonEntries : List (String × Json) → List (String × Attribute)
  | [] => []
  | (k, v) :: es => (k, ofJson v) :: ofJsonEntries es

end

mutual

theorem toJson_ofJson (v : Json) : (ofJson v).toJson = .ok v :=
  match v with
  | .null | .bool _ | .int _ | .float _ | .str _ | .torn _ _ _ => rfl
  | .arr items => by rw [ofJson, toJson, toJsonAll_ofJsonAll items]; rfl
  | .obj entries => by rw [ofJson, toJson, toJsonEntries_ofJsonEntries entries]; rfl

theorem toJsonAll_ofJsonAll (vs : List Json) : toJsonAll (ofJsonAll vs) = .ok vs :=
  match vs with
  | [] => rfl
  | v :: vs => by rw [ofJsonAll, toJsonAll, toJson_ofJson v, toJsonAll_ofJsonAll vs]; rfl

theorem toJsonEntries_ofJsonEntries (es : Entries) :
    toJsonEntries (ofJsonEntries es) = .ok es :=
  match es with
  | [] => rfl
  | (k, v) :: es => by
    rw [ofJsonEntries, toJsonEntries, toJson_ofJson v, toJsonEntries_ofJsonEntries es]; rfl

end

theorem toJsonAll_map {α : Type} {f : α → Attribute} {g : α → Json}
    (h : ∀ a, (f a).toJson = .ok (g a)) (xs : List α) :
    toJsonAll (xs.map f) = .ok (xs.map g) := by
  induction xs with
  | nil => rfl
  | cons x xs ih => rw [List.map_cons, toJsonAll, h, ih]; rfl

end Attribute

def Cell.stored (c : Cell) : Attribute := .tuple [.int c.1, .int c.2]

theorem Cell.toJson_stored (c : Cell) : c.stored.toJson = .ok c.toJson := rfl

namespace World

variable {w : World} {es : Entries}

/-- The description with tuples for cells. -/
def stored (w : World) : Attribute :=
  .obj [("challenge_id", .ofJson w.challengeId), ("rows", .int w.rows), ("cols", .int w.cols),
    ("obstacles", .list (w.obstacles.map Cell.stored)),
    ("goal", w.goal.elim .null Cell.stored),
    ("collectibles", .list (w.collectibles.map Cell.stored)),
    ("start", w.start.stored), ("start_direction", .str w.facing.name),
    ("variant", .str w.variant)]

theorem toJson_stored (w : World) : w.stored.toJson = .ok w.config := by
  have hgoal : (w.goal.elim Attribute.null Cell.stored).toJson =
      .ok (Json.ofOption Cell.toJson w.goal) := by
    cases w.goal with
    | none => rfl
    | some c => rfl
  rw [stored]
  simp only [Attribute.toJson, Attribute.toJsonEntries, Attribute.toJson_ofJson, hgoal,
    Attribute.toJsonAll_map Cell.toJson_stored, Cell.toJson_stored, bind, Except.bind,
    Except.map, pure, Except.pure]
  rfl

theorem text_stored (w : World) : w.stored.text = .ok w.config.render := by
  rw [Attribute.text, toJson_stored]
  rfl

/-! ## Plain descriptions -/

theorem arePlain_cells (cells : List Cell) : Json.arePlain (cells.map Cell.toJson) = true := by
  induction cells with
  | nil => rfl
  | cons c cells ih => exact ih

theorem isPlain_config (w : World) : w.config.isPlain = w.challengeId.isPlain := by
  have hgoal : (Json.ofOption Cell.toJson w.goal).isPlain = true := by
    cases w.goal with
    | none => rfl
    | some c => rfl
  have hstart : w.start.toJson.isPlain = true := rfl
  have hnames : ∀ es : Entries, Entries.names es = ["challenge_id", "rows", "cols", "obstacles",
      "goal", "collectibles", "start", "start_direction", "variant"] →
      (Json.obj es).isPlain = Json.membersPlain es := by
    intro es hes
    have hnodup : (Entries.names es).Nodup := by
      rw [hes]
      decide
    rw [Json.isPlain, decide_eq_true hnodup, Bool.true_and]
  rw [config, hnames _ rfl]
  simp only [Json.membersPlain, Json.isPlain, arePlain_cells, hgoal, hstart, Bool.and_true]

/-! ## Boards of arguments -/

/-- Whatever was handed over by name, it was read as a layout. -/
theorem exists_place (h : ofArguments es = .ok w) : ∃ l, place l = .ok w := by
  obtain ⟨-, -, h⟩ := exists_of_bind_eq_ok h
  split at h
  next rows cols _ _ =>
    obtain ⟨-, -, h⟩ := exists_of_bind_eq_ok h
    obtain ⟨l, -, h⟩ := exists_of_bind_eq_ok h
    exact ⟨l, eq_ok_of_mapError h⟩
  next => cases h

theorem ofArguments_of_matches {l : Layout} (hfits : l.Fits) (h : w.Matches l) :
    ofArguments l.arguments = .ok w := by
  have hsides := w.sides_positive
  rw [← h.rows, ← h.cols] at hsides
  rw [ofArguments_arguments, build_of_fits hfits, if_neg (by omega), furnish_eq_ok_iff.mpr h]
  rfl

/-- A board that was built of any arguments has a description that builds the same board: with the
same description again, the same open cells, the same start, and the same result of every motion
from every state. What is read from the stored text of the description does so too, for an id that
is any text, and for other ids in which there are no doubles. -/
theorem rebuilt_from_description (es : Entries) (w : World) (h : ofArguments es = .ok w) :
    (∃ entries, w.config = .obj entries ∧
      ofArguments (Entries.erase "variant" entries) = .ok w) ∧
    (w.challengeId.isPlain = true → ∃ text entries, w.stored.text = .ok text ∧
      Json.parse? text = some (.obj entries) ∧ w.config = .obj entries ∧
      ofArguments (Entries.erase "variant" entries) = .ok w) := by
  obtain ⟨l, hl⟩ := exists_place h
  obtain ⟨entries, hentries, hbuilt⟩ := ofArguments_config hl
  refine ⟨⟨entries, hentries, hbuilt⟩, fun hid => ?_⟩
  have hplain : w.config.isPlain = true := (isPlain_config w).trans hid
  refine ⟨_, entries, text_stored w, ?_, hentries, hbuilt⟩
  rw [← hentries, Json.parse?_render hplain]

/-- A layout with obstacles in disorder and one of them twice, a facing in capitals, and an id that
has to be escaped. -/
def unsorted : Layout :=
  ⟨.str "le \"café\" 😀\n", 2, 3, [(1, 2), (0, 1), (1, 2)], some (1, 1), [], (0, 0), "UP"⟩

def terrace : World where
  challengeId := .str "le \"café\" 😀\n"
  rows := 2
  cols := 3
  obstacles := [(0, 1), (1, 2)]
  goal := some (1, 1)
  collectibles := []
  start := (0, 0)
  facing := .up
  obstacles_inside := rfl
  one_objective := .inr rfl
  start_open := rfl
  goal_open := rfl
  collectibles_open := rfl
  collectibles_nodup := by decide

theorem rebuilt_from_description_terrace : ofArguments unsorted.arguments = .ok terrace ∧
    ∃ text entries, terrace.stored.text = .ok text ∧ Json.parse? text = some (.obj entries) ∧
      ofArguments (Entries.erase "variant" entries) = .ok terrace := by
  have hcapitals : Text.Cased "up".toList "UP".toList := by simp [Text.Cased]
  have hfacing : lowercase unsorted.facing = "up" := lowercase_of_cased hcapitals (by decide)
  have hmatches : terrace.Matches unsorted :=
    ⟨rfl, rfl, rfl, by decide, rfl, rfl, rfl, by rw [hfacing]; rfl⟩
  have hbuilt := ofArguments_of_matches (fun _ _ => by decide) hmatches
  obtain ⟨-, hstored⟩ := rebuilt_from_description unsorted.arguments terrace hbuilt
  obtain ⟨text, entries, htext, hparse, -, hagain⟩ := hstored rfl
  exact ⟨hbuilt, text, entries, htext, hparse, hagain⟩

end World

end BlockGrid
