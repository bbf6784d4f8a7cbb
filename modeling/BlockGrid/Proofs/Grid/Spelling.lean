import BlockGrid.Proofs.Grid.Travel
import BlockGrid.Proofs.Number.Value

/-!
# BlockGrid.Proofs.Grid.Spelling

The ways to write a state. Each field chooses for itself which of its names it uses and how its
values are written.

* `Json.Writes`      — an integer as such, as decimal text, or as a double that is equal to it.
* `Json.WritesCell`, `WritesCells` — a cell as a pair or as an object, and a list of cells.
* `Member`           — a field under one of its names, or left out.
* `Actor.Spelled`    — the entries that are a way to write a state.
* `ofEntries_of_spelled` — whichever is taken, the state is read.
* `isKnown_of_ofJson`    — whatever is read as a state has a known facing.
* `spelling_reads_back`  — so the travelling form of what was read is read as the same.
-/

namespace BlockGrid

/-! ## Integers and words -/

namespace Json

variable {v : Json} {n : Int} {word : String}

inductive Writes (n : Int) : Json → Prop where
  | int : Writes n (.int n)
  | text : Writes n (.str (toString n))
  | float {x : Binary64} : x.isFinite = true → x.scaled.value = n → Writes n (.float x)

/-- There is no white space in a decimal text. -/
theorem integer?_toString (n : Int) : Text.integer? (toString n).toList = some n := by
  have hspace : ∀ c ∈ (toString n).toList, Text.isSpace c = false := by
    intro c hc
    have hblank := Text.isBlank_toString n c hc
    rw [Text.isBlank, Bool.or_eq_false_iff] at hblank
    exact hblank.1
  have htrim : Text.trim Text.isSpace (toString n).toList = (toString n).toList :=
    Text.trim_of_ends (fun c hc => hspace c (List.mem_of_head? hc))
      (fun c hc => hspace c (List.mem_reverse.mp (List.mem_of_head? hc)))
  rw [Text.integer?, htrim]
  exact (Text.numeral_toString n).signed?_eq

theorem toInteger_of_writes (h : Writes n v) : v.toInteger = .ok n := by
  cases h with
  | int => rfl
  | text => rw [toInteger, integer?_toString]
  | float hf hx =>
    rw [toInteger, Binary64.extended_of_isFinite hf]
    exact congrArg Except.ok (Scaled.trunc_of_value hx)

/-- A word in any letter case. -/
inductive WritesWord (word : String) : Json → Prop where
  | text {s : String} : Text.Cased word.toList s.toList → WritesWord word (.str s)

end Json

/-! ## Members -/

/-- What stands under the first name, or under the second if there is nothing under the first. A
field with its default value may be left out. -/
inductive Member (entries : Entries) (first second : String) (IsValue : Json → Prop)
    (isDefault : Prop) : Prop where
  | first {v : Json} : entries.get? first = some v → IsValue v →
      Member entries first second IsValue isDefault
  | second {v : Json} : entries.get? first = none → entries.get? second = some v → IsValue v →
      Member entries first second IsValue isDefault
  | omitted : entries.get? first = none → entries.get? second = none → isDefault →
      Member entries first second IsValue isDefault

/-- The member that is taken is written well, or it is the default value. -/
theorem Member.either {entries : Entries} {first second : String} {IsValue : Json → Prop}
    {isDefault : Prop} (h : Member entries first second IsValue isDefault) (default : Json) :
    IsValue (Actor.either entries first second default) ∨
      Actor.either entries first second default = default ∧ isDefault := by
  cases h with
  | first hv hvalue =>
    rw [Actor.either, hv]
    exact .inl hvalue
  | second hnone hv hvalue =>
    rw [Actor.either, hnone, hv]
    exact .inl hvalue
  | omitted hfirst hsecond hdefault =>
    rw [Actor.either, hfirst, hsecond]
    exact .inr ⟨rfl, hdefault⟩

/-! ## Cells -/

namespace Json

variable {v : Json} {c : Cell} {cells : List Cell}

/-- A row and a column, as a pair or under names of their own. -/
inductive WritesCell (c : Cell) : Json → Prop where
  | pair {row col : Json} : Writes c.1 row → Writes c.2 col → WritesCell c (.arr [row, col])
  | object {entries : Entries} : Member entries "r" "row" (Writes c.1) False →
      Member entries "c" "col" (Writes c.2) False → WritesCell c (.obj entries)

/-- Null is no cells. -/
inductive WritesCells : List Cell → Json → Prop where
  | list {cells : List Cell} {items : List Json} : List.Forall₂ WritesCell cells items →
      WritesCells cells (.arr items)
  | null : WritesCells [] .null

end Json

namespace Actor

open Json

variable {a b : Actor} {v : Json} {c : Cell} {cells : List Cell} {entries : Entries}

theorem cellOf_of_writes (h : WritesCell c v) : cellOf v = .ok c := by
  cases h with
  | pair hrow hcol =>
    show (do
      let r ← toInteger _
      let k ← toInteger _
      pure (r, k)) = _
    rw [toInteger_of_writes hrow, toInteger_of_writes hcol]
    rfl
  | object hrow hcol =>
    have hr := (hrow.either .null).resolve_right (·.2)
    have hc := (hcol.either .null).resolve_right (·.2)
    show (do
      let r ← toInteger _
      let k ← toInteger _
      pure (r, k)) = _
    rw [toInteger_of_writes hr, toInteger_of_writes hc]
    rfl

theorem mapM_of_writes {items : List Json} (h : List.Forall₂ WritesCell cells items) :
    items.mapM cellOf = .ok cells := by
  induction h with
  | nil => rfl
  | cons hc _ ih =>
    rw [List.mapM_cons, cellOf_of_writes hc, ih]
    rfl

theorem cellsOf_of_writes (h : WritesCells cells v) : cellsOf v = .ok cells := by
  cases h with
  | null => rfl
  | list hitems =>
    cases hitems with
    | nil => rfl
    | cons hc hcs => exact mapM_of_writes (.cons hc hcs)

/-! ## States -/

/-- Entries that are a way to write a state. There may be others among them. -/
structure Spelled (a : Actor) (entries : Entries) : Prop where
  row : ∃ v, entries.get? "row" = some v ∧ Writes a.row v
  col : ∃ v, entries.get? "col" = some v ∧ Writes a.col v
  direction : Member entries "direction" "dir" (WritesWord a.direction) (a.direction = "right")
  body : (∃ v, entries.get? "body" = some v ∧ WritesCells a.body v) ∨
    entries.get? "body" = none ∧ a.body = []
  collected : Member entries "collectedStars" "collected" (WritesCells a.collected)
    (a.collected = [])
  stepCount : Member entries "stepCount" "step_count" (Writes a.stepCount) (a.stepCount = 0)

namespace Spelled

theorem lower_direction (h : a.Spelled entries) (hknown : Direction.isKnown a.direction = true) :
    (either entries "direction" "dir" (.str "right")).printed.lower = .whole a.direction := by
  obtain ⟨d, hd⟩ := Direction.exists_name_of_isKnown hknown
  have hword : Text.isWord a.direction.toList = true := by
    rw [← hd]
    cases d <;> decide
  rcases h.direction.either (.str "right") with hwritten | ⟨hright, hdefault⟩
  · generalize either entries "direction" "dir" (.str "right") = v at hwritten
    cases hwritten with
    | text hcased => exact congrArg LooseText.whole (lowercase_of_cased hcased hword)
  · rw [hright, hdefault]
    exact congrArg LooseText.whole (lowercase_name .right)

theorem cells_body (h : a.Spelled entries) :
    cellsOf ((entries.get? "body").getD .null) = .ok a.body := by
  rcases h.body with ⟨v, hv, hcells⟩ | ⟨hnone, hempty⟩
  · rw [hv]
    exact cellsOf_of_writes hcells
  · rw [hnone, hempty]
    rfl

theorem cells_collected (h : a.Spelled entries) :
    cellsOf (either entries "collectedStars" "collected" .null) = .ok a.collected := by
  rcases h.collected.either .null with hcells | ⟨hnull, hempty⟩
  · exact cellsOf_of_writes hcells
  · rw [hnull, hempty]
    rfl

theorem steps (h : a.Spelled entries) :
    (either entries "stepCount" "step_count" (.int 0)).toInteger = .ok a.stepCount := by
  rcases h.stepCount.either (.int 0) with hwritten | ⟨hzero, hdefault⟩
  · exact toInteger_of_writes hwritten
  · rw [hzero, hdefault]
    rfl

end Spelled

theorem ofEntries_of_spelled (h : a.Spelled entries)
    (hknown : Direction.isKnown a.direction = true) : ofEntries entries = .ok a := by
  obtain ⟨row, hrow, hwrites⟩ := h.row
  obtain ⟨col, hcol, hwrites'⟩ := h.col
  have hmember : ∀ {name : String} {v : Json}, entries.get? name = some v →
      member entries name = .ok v := by
    intro name v hv
    rw [member, hv]
  have hfields : fieldsOf entries a.direction = .ok a := by
    rw [fieldsOf, hmember hrow, hmember hcol, h.cells_body, h.cells_collected, h.steps]
    simp only [bind, Except.bind, toInteger_of_writes hwrites, toInteger_of_writes hwrites']
    rfl
  simp only [ofEntries, h.lower_direction hknown, hknown, if_true, hfields]
  rfl

/-- The travelling form is one of the ways. -/
theorem spelled_toJson (a : Actor) : ∃ entries, a.toJson = .obj entries ∧ a.Spelled entries := by
  have hcells : ∀ cells : List Cell, WritesCells cells (.arr (cells.map Cell.toJson)) := by
    intro cells
    refine .list (List.forall₂_map_right_iff.mpr (List.forall₂_same.mpr fun c _ => ?_))
    exact .pair .int .int
  refine ⟨_, rfl, ⟨_, rfl, .int⟩, ⟨_, rfl, .int⟩, .first rfl ?_, .inl ⟨_, rfl, hcells a.body⟩,
    .first rfl (hcells a.collected), .first rfl .int⟩
  exact .text (Text.Cased.refl _)

/-- The direction is put into the state as it was looked up. -/
theorem direction_of_fieldsOf {direction : String} (h : fieldsOf entries direction = .ok b) :
    b.direction = direction := by
  obtain ⟨_, -, h⟩ := exists_of_bind_eq_ok h
  obtain ⟨_, -, h⟩ := exists_of_bind_eq_ok h
  obtain ⟨_, -, h⟩ := exists_of_bind_eq_ok h
  obtain ⟨_, -, h⟩ := exists_of_bind_eq_ok h
  obtain ⟨_, -, h⟩ := exists_of_bind_eq_ok h
  obtain ⟨_, -, h⟩ := exists_of_bind_eq_ok h
  obtain ⟨_, -, h⟩ := exists_of_bind_eq_ok h
  cases h
  rfl

theorem isKnown_of_ofJson (h : ofJson v = .ok b) : Direction.isKnown b.direction = true := by
  cases v with
  | obj entries =>
    simp only [ofJson, ofEntries] at h
    split at h
    · split at h
      · rename_i hknown
        rw [direction_of_fieldsOf (eq_ok_of_mapError h)]
        exact hknown
      · cases h
    · cases h
  | _ => cases h

/-- Every way to write a state is read as the state, and the travelling form is one of them. What
was read of any value at all comes back from its travelling form. -/
theorem spelling_reads_back :
    (∀ (a : Actor) (entries : Entries), Direction.isKnown a.direction = true →
      a.Spelled entries → ofJson (.obj entries) = .ok a) ∧
    (∀ a : Actor, ∃ entries, a.toJson = .obj entries ∧ a.Spelled entries) ∧
    ∀ (v : Json) (b : Actor), ofJson v = .ok b → ofJson b.toJson = .ok b :=
  ⟨fun _ _ hknown h => ofEntries_of_spelled h hknown, spelled_toJson,
    fun _ _ h => ofJson_toJson (isKnown_of_ofJson h)⟩

/-- Half a turn away from home. -/
def returning : Actor := ⟨-3, 2, "left", [(0, 1), (4, -5)], [], 0⟩

/-- Older names, letters of both kinds, and no two integers written alike. -/
def returningEntries : Entries :=
  [("col", .float ⟨0x4000000000000000⟩), ("row", .str "-3"), ("dir", .str "LeFt"),
    ("body", .arr [.arr [.str "0", .int 1], .obj [("col", .str "-5"), ("row", .int 4)]]),
    ("collectedStars", .null), ("mood", .str "glad")]

theorem spelled_returning : returning.Spelled returningEntries where
  row := ⟨_, rfl, .text⟩
  col := ⟨_, rfl, .float rfl (Scaled.toInt?_eq_some_iff.mp rfl)⟩
  direction := by
    have hword : Text.Cased "left".toList "LeFt".toList :=
      .cons (.inr rfl) (.cons (.inl rfl) (.cons (.inr rfl) (.cons (.inl rfl) .nil)))
    exact .second rfl rfl (.text hword)
  body := by
    have hpair : WritesCell (0, 1) (.arr [.str "0", .int 1]) := .pair .text .int
    have hobject : WritesCell (4, -5) (.obj [("col", .str "-5"), ("row", .int 4)]) :=
      .object (.second rfl rfl .int) (.second rfl rfl .text)
    exact .inl ⟨_, rfl, .list (.cons hpair (.cons hobject .nil))⟩
  collected := .first rfl .null
  stepCount := .omitted rfl rfl rfl

theorem spelling_reads_back_returning :
    Direction.isKnown returning.direction = true ∧ returning.Spelled returningEntries ∧
      ofJson (.obj returningEntries) = .ok returning ∧ ofJson returning.toJson = .ok returning := by
  have hknown : Direction.isKnown returning.direction = true := by decide
  have hread : ofJson (.obj returningEntries) = .ok returning :=
    spelling_reads_back.1 returning returningEntries hknown spelled_returning
  exact ⟨hknown, spelled_returning, hread, spelling_reads_back.2.2 _ _ hread⟩

end Actor

end BlockGrid
