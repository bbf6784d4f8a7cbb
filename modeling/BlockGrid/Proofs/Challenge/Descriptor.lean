import BlockGrid.Challenge.Descriptor
import BlockGrid.Proofs.Challenge.Checks
import BlockGrid.Proofs.Grid.Travel

/-!
# BlockGrid.Proofs.Challenge.Descriptor

Challenges and the descriptors that they are read from.

* `Challenge.ReadFrom` — each field is what the check of its entry gives; `validate_eq_ok_iff`.
* `Challenge.Sound`    — positive sides, no negative budget, and texts that are well formed where the
  check is strict, as in every challenge that was read.
* `validate_toJson`    — a sound challenge is read back from plain data.
* `Challenge.Grown`    — a descriptor with more entries, on whatever level; `validate_grown`, they are
  passed over, by faults as well.
* `validate_keeps`     — what a challenge keeps of its descriptor.
-/

namespace BlockGrid

namespace Challenge

open Checked

variable {strict : Bool} {c : Challenge} {es es' : Entries} {v v' : Json}

/-! ## Fields -/

structure ReadFrom (strict : Bool) (c : Challenge) (es : Entries) : Prop where
  id : optional "id" (.whole "custom") (string strict) es = .ok c.id
  title : optional "title" (.whole "") (string strict) es = .ok c.title
  description : optional "description" (.whole "") (string strict) es = .ok c.description
  difficulty : optional "difficulty" (.whole "easy") (string strict) es = .ok c.difficulty
  maxBlocks : budget es = .ok c.maxBlocks
  grid : required "grid" (object grid) es = .ok (c.rows, c.cols)
  obstacles : optional "obstacles" [] (list (object cell)) es = .ok c.obstacles
  goal : optional "goal" none (nullable (object cell)) es = .ok c.goal
  stars : optional "stars" [] (list (object cell)) es = .ok c.stars
  start : required "start" (object (startCell strict)) es = .ok (c.start, c.facing)

theorem ofEntries_eq_ok_iff : ofEntries strict es = .ok c ↔ ReadFrom strict c es := by
  rw [ofEntries, map_eq_ok_iff]
  constructor
  · rintro ⟨⟨texts, maxBlocks, board⟩, h, rfl⟩
    obtain ⟨htexts, h⟩ := both_eq_ok_iff.mp h
    obtain ⟨hbudget, hboard⟩ := both_eq_ok_iff.mp h
    obtain ⟨hid, htexts⟩ := both_eq_ok_iff.mp htexts
    obtain ⟨htitle, htexts⟩ := both_eq_ok_iff.mp htexts
    obtain ⟨hdescription, hdifficulty⟩ := both_eq_ok_iff.mp htexts
    obtain ⟨hgrid, hboard⟩ := both_eq_ok_iff.mp hboard
    obtain ⟨hobstacles, hboard⟩ := both_eq_ok_iff.mp hboard
    obtain ⟨hgoal, hboard⟩ := both_eq_ok_iff.mp hboard
    obtain ⟨hstars, hstart⟩ := both_eq_ok_iff.mp hboard
    exact ⟨hid, htitle, hdescription, hdifficulty, hbudget, hgrid, hobstacles, hgoal, hstars, hstart⟩
  · intro h
    have htexts := both_eq_ok_iff.mpr ⟨h.id, both_eq_ok_iff.mpr ⟨h.title,
      both_eq_ok_iff.mpr ⟨h.description, h.difficulty⟩⟩⟩
    have hboard := both_eq_ok_iff.mpr ⟨h.grid, both_eq_ok_iff.mpr ⟨h.obstacles,
      both_eq_ok_iff.mpr ⟨h.goal, both_eq_ok_iff.mpr ⟨h.stars, h.start⟩⟩⟩⟩
    exact ⟨_, both_eq_ok_iff.mpr ⟨htexts, both_eq_ok_iff.mpr ⟨h.maxBlocks, hboard⟩⟩, rfl⟩

theorem validate_eq_ok_iff :
    validate strict v = .ok c ↔ ∃ es, v = .obj es ∧ ReadFrom strict c es := by
  simp only [validate, object_eq_ok_iff, ofEntries_eq_ok_iff]

theorem grid_eq_ok_iff {rows cols : Int} : grid es = .ok (rows, cols) ↔
    required "rows" positive es = .ok rows ∧ required "cols" positive es = .ok cols :=
  both_eq_ok_iff

theorem startCell_eq_ok_iff {x : Cell} {d : Direction} : startCell strict es = .ok (x, d) ↔
    cell es = .ok x ∧ optional "dir" .right (direction strict) es = .ok d :=
  both_eq_ok_iff

/-! ## Written back -/

/-- What the checks of numbers see to, and what a strict check of texts sees to. -/
structure Sound (strict : Bool) (c : Challenge) : Prop where
  rows : 0 < c.rows
  cols : 0 < c.cols
  maxBlocks : ∀ n, c.maxBlocks = some n → 0 ≤ n
  texts : strict = true → ∀ t ∈ [c.id, c.title, c.description, c.difficulty], t.isTorn = false

/-- Null apart, which is no budget. -/
theorem nonneg_of_nullable {n : Int} (h : nullable natural v = .ok (some n)) : 0 ≤ n := by
  have hmap : (natural v).map some = .ok (some n) := by
    cases v with
    | null => cases h
    | _ => exact h
  obtain ⟨m, hm, ⟨⟩⟩ := map_eq_ok_iff.mp hmap
  exact (atLeast_eq_ok_iff.mp hm).2

theorem nonneg_of_budget {n : Int} (h : budget es = .ok (some n)) : 0 ≤ n := by
  have hfield : ∀ {name : String},
      optional name none (nullable natural) es = .ok (some n) → 0 ≤ n := by
    intro name hname
    rw [Checked.optional] at hname
    split at hname
    · exact nonneg_of_nullable (within_eq_ok_iff.mp hname)
    · cases hname
  rw [budget] at h
  split at h
  · exact hfield h
  · exact hfield h

/-- Under a name that may be left out, too. -/
theorem isTorn_of_text {name default : String} {t : LooseText}
    (h : optional name (.whole default) (string true) es = .ok t) : t.isTorn = false := by
  rw [Checked.optional] at h
  split at h
  · exact (string_eq_ok_iff.mp (within_eq_ok_iff.mp h)).2 rfl
  · cases h
    rfl

theorem sound_of_readFrom (h : ReadFrom strict c es) : Sound strict c := by
  obtain ⟨_, -, hgrid⟩ := required_eq_ok_iff.mp h.grid
  obtain ⟨sides, -, hsides⟩ := object_eq_ok_iff.mp hgrid
  obtain ⟨hrows, hcols⟩ := grid_eq_ok_iff.mp hsides
  obtain ⟨_, -, hr⟩ := required_eq_ok_iff.mp hrows
  obtain ⟨_, -, hk⟩ := required_eq_ok_iff.mp hcols
  refine ⟨(atLeast_eq_ok_iff.mp hr).2, (atLeast_eq_ok_iff.mp hk).2,
    fun n hn => nonneg_of_budget (hn ▸ h.maxBlocks), ?_⟩
  rintro rfl
  simp only [List.forall_mem_cons]
  exact ⟨isTorn_of_text h.id, isTorn_of_text h.title, isTorn_of_text h.description,
    isTorn_of_text h.difficulty, List.forall_mem_nil _⟩

/-- The letters of a direction may be of either case. -/
theorem direction_of_cased {d : Direction} {s : String} (h : Text.Cased d.name.toList s.toList) :
    direction strict (.str s) = .ok d := by
  have hword : Text.isWord d.name.toList = true := by
    cases d <;> decide
  simp only [direction, string, lowercase_of_cased h hword, Direction.ofName?_name]

theorem object_cell_cellJson (x : Cell) : object cell (cellJson x) = .ok x := rfl

theorem list_cellJson (cells : List Cell) :
    list (object cell) (.arr (cells.map cellJson)) = .ok cells :=
  items_map object_cell_cellJson cells 0

theorem nullable_cellJson (goal : Option Cell) :
    nullable (object cell) (Json.ofOption cellJson goal) = .ok goal := by
  cases goal with
  | none => rfl
  | some x => rfl

theorem nullable_natural {maxBlocks : Option Int} (h : ∀ n, maxBlocks = some n → 0 ≤ n) :
    nullable natural (Json.ofOption .int maxBlocks) = .ok maxBlocks := by
  cases maxBlocks with
  | none => rfl
  | some n =>
    have hn : natural (.int n) = .ok n := atLeast_eq_ok_iff.mpr ⟨rfl, h n rfl⟩
    show (natural (.int n)).map some = _
    rw [hn]
    rfl

theorem grid_sides {rows cols : Int} (hrows : 0 < rows) (hcols : 0 < cols) :
    grid [("rows", .int rows), ("cols", .int cols)] = .ok (rows, cols) :=
  grid_eq_ok_iff.mpr
    ⟨required_eq_ok_iff.mpr ⟨_, rfl, atLeast_eq_ok_iff.mpr ⟨rfl, hrows⟩⟩,
      required_eq_ok_iff.mpr ⟨_, rfl, atLeast_eq_ok_iff.mpr ⟨rfl, hcols⟩⟩⟩

theorem startCell_written (x : Cell) (d : Direction) :
    startCell strict [("r", .int x.1), ("c", .int x.2), ("dir", .str d.name)] = .ok (x, d) :=
  startCell_eq_ok_iff.mpr ⟨rfl, within_eq_ok_iff.mpr (direction_of_cased (.refl _))⟩

theorem validate_toJson (h : Sound strict c) : validate strict c.toJson = .ok c := by
  have htext {place : Place} {t : LooseText}
      (ht : t ∈ [c.id, c.title, c.description, c.difficulty]) :
      within place (string strict (.ofText t)) = .ok t :=
    within_eq_ok_iff.mpr (string_eq_ok_iff.mpr ⟨rfl, fun hstrict => h.texts hstrict t ht⟩)
  exact ofEntries_eq_ok_iff.mpr
    { id := htext (by simp)
      title := htext (by simp)
      description := htext (by simp)
      difficulty := htext (by simp)
      maxBlocks := within_eq_ok_iff.mpr (nullable_natural h.maxBlocks)
      grid := required_eq_ok_iff.mpr ⟨_, rfl, grid_sides h.rows h.cols⟩
      obstacles := within_eq_ok_iff.mpr (list_cellJson c.obstacles)
      goal := within_eq_ok_iff.mpr (nullable_cellJson c.goal)
      stars := within_eq_ok_iff.mpr (list_cellJson c.stars)
      start := required_eq_ok_iff.mpr ⟨_, rfl, startCell_written c.start c.facing⟩ }

/-! ## More entries -/

def CellGrown : Json → Json → Prop := Json.Grown ["r", "c"] fun _ => Eq

def StartGrown : Json → Json → Prop := Json.Grown ["r", "c", "dir"] fun _ => Eq

def SidesGrown : Json → Json → Prop := Json.Grown ["rows", "cols"] fun _ => Eq

/-- How the member under a name may have grown. -/
def MemberGrown (name : String) : Json → Json → Prop :=
  if name = "grid" then SidesGrown
  else if name = "start" then StartGrown
  else if name = "goal" then CellGrown
  else if name = "obstacles" ∨ name = "stars" then Json.ItemsGrown CellGrown
  else Eq

def fieldNames : List String :=
  ["id", "title", "description", "difficulty", "maxBlocks", "max_blocks", "grid", "obstacles", "goal",
    "stars", "start"]

/-- The same descriptor with more entries: in itself, in the grid, in the start and in any cell. -/
def Grown : Json → Json → Prop := Json.Grown fieldNames MemberGrown

theorem cell_grown {names : List String} (h : Entries.Grown names (fun _ => Eq) es es')
    (hr : "r" ∈ names) (hc : "c" ∈ names) : cell es = cell es' :=
  congrArg₂ both (required_congr (h.get? hr) fun _ _ => congrArg integer)
    (required_congr (h.get? hc) fun _ _ => congrArg integer)

theorem object_cell_grown (h : CellGrown v v') : object cell v = object cell v' :=
  object_congr h fun _ _ hes => cell_grown hes (by decide) (by decide)

theorem object_startCell_grown (h : StartGrown v v') :
    object (startCell strict) v = object (startCell strict) v' :=
  object_congr h fun _ _ hes => congrArg₂ both (cell_grown hes (by decide) (by decide))
    (optional_congr (hes.get? (by decide)) fun _ _ => congrArg (direction strict))

theorem object_grid_grown (h : SidesGrown v v') : object grid v = object grid v' :=
  object_congr h fun _ _ hes => congrArg₂ both
    (required_congr (hes.get? (by decide)) fun _ _ => congrArg positive)
    (required_congr (hes.get? (by decide)) fun _ _ => congrArg positive)

/-- Members that are no objects are left as they are. -/
theorem get?_grown {name : String} (h : Entries.Grown fieldNames MemberGrown es es')
    (hname : name ∈ fieldNames) (heq : MemberGrown name = Eq) :
    Option.Rel Eq (es.get? name) (es'.get? name) :=
  heq ▸ h.get? hname

theorem budget_grown (h : Entries.Grown fieldNames MemberGrown es es') : budget es = budget es' := by
  have hfirst := get?_grown h (by decide : "maxBlocks" ∈ fieldNames) rfl
  have hsecond := get?_grown h (by decide : "max_blocks" ∈ fieldNames) rfl
  have hcheck : ∀ v v', v = v' → nullable natural v = nullable natural v' :=
    fun _ _ => congrArg (nullable natural)
  rw [budget, budget, optional_congr hfirst hcheck, optional_congr hsecond hcheck]
  -- Both descriptors have the first name, or neither does.
  revert hfirst
  cases es.get? "maxBlocks" <;> cases es'.get? "maxBlocks" <;> intro hfirst
  · rfl
  · cases hfirst
  · cases hfirst
  · rfl

theorem ofEntries_grown (h : Entries.Grown fieldNames MemberGrown es es') :
    ofEntries strict es = ofEntries strict es' := by
  have htext : ∀ {name : String} (default : LooseText), name ∈ fieldNames → MemberGrown name = Eq →
      optional name default (string strict) es = optional name default (string strict) es' := by
    intro name default hname heq
    exact optional_congr (get?_grown h hname heq) fun _ _ => congrArg (string strict)
  have hcells : ∀ {name : String}, name ∈ fieldNames →
      MemberGrown name = Json.ItemsGrown CellGrown →
      optional name [] (list (object cell)) es = optional name [] (list (object cell)) es' := by
    intro name hname hitems
    exact optional_congr (hitems ▸ h.get? hname) fun _ _ hv =>
      list_congr hv fun _ _ => object_cell_grown
  have hgoal : optional "goal" none (nullable (object cell)) es =
      optional "goal" none (nullable (object cell)) es' :=
    optional_congr (h.get? (by decide)) fun _ _ hv => nullable_congr hv fun _ _ => object_cell_grown
  have hgrid : required "grid" (object grid) es = required "grid" (object grid) es' :=
    required_congr (h.get? (by decide)) fun _ _ => object_grid_grown
  have hstart : required "start" (object (startCell strict)) es =
      required "start" (object (startCell strict)) es' :=
    required_congr (h.get? (by decide)) fun _ _ => object_startCell_grown
  rw [ofEntries, ofEntries, htext "custom" (by decide) rfl, htext "" (by decide) rfl,
    htext "" (by decide) rfl, htext "easy" (by decide) rfl, budget_grown h, hgrid,
    hcells (by decide) rfl, hgoal, hcells (by decide) rfl, hstart]

theorem validate_grown (h : Grown v v') : validate strict v = validate strict v' :=
  object_congr h fun _ _ => ofEntries_grown

/-! ## What is kept -/

/-- What a challenge keeps of the descriptor `v` that it was read from. -/
structure Keeps (strict : Bool) (c : Challenge) (v : Json) : Prop where
  readBack : validate strict c.toJson = .ok c
  grown : ∀ v', Grown v v' → validate strict v' = .ok c
  rows : 0 < c.rows
  cols : 0 < c.cols
  maxBlocks : c.maxBlocks = none ∨ ∃ n, c.maxBlocks = some n ∧ 0 ≤ n
  facing : Direction.isKnown c.facing.name = true ∧ lowercase c.facing.name = c.facing.name
  builds : (∃ w, World.ofDescriptor strict v = .ok w) ↔ ∃ w, c.world = .ok w
  config : ∀ w w', World.ofDescriptor strict v = .ok w → c.world = .ok w' → w.config = w'.config

theorem ofDescriptor_of_validate (h : validate strict v = .ok c) :
    World.ofDescriptor strict v = c.world.mapError .layout := by
  rw [World.ofDescriptor, h]

theorem validate_keeps (h : validate strict v = .ok c) : Keeps strict c v := by
  obtain ⟨es, -, hread⟩ := validate_eq_ok_iff.mp h
  have hsound : Sound strict c := sound_of_readFrom hread
  have hboard : World.ofDescriptor strict v = c.world.mapError .layout := ofDescriptor_of_validate h
  refine
    { readBack := validate_toJson hsound
      grown := fun v' hv => (validate_grown hv).symm.trans h
      rows := hsound.rows
      cols := hsound.cols
      maxBlocks := ?_
      facing := ⟨?_, Actor.lowercase_name c.facing⟩
      builds := ?_
      config := ?_ }
  · cases hn : c.maxBlocks with
    | none => exact .inl rfl
    | some n => exact .inr ⟨n, rfl, hsound.maxBlocks n hn⟩
  · rw [Direction.isKnown, Direction.ofName?_name]
    rfl
  · constructor
    · rintro ⟨w, hw⟩
      exact ⟨w, eq_ok_of_mapError (hboard ▸ hw)⟩
    · rintro ⟨w, hw⟩
      exact ⟨w, by rw [hboard, hw]; rfl⟩
  · intro w w' hw hw'
    have hsame : c.world = .ok w := eq_ok_of_mapError (hboard ▸ hw)
    rw [Except.ok.inj (hsame.symm.trans hw')]

/-- A small yard. -/
def yard : Challenge :=
  { id := "custom", title := "", description := "", difficulty := "easy", maxBlocks := some 1,
    rows := 3, cols := 4, obstacles := [(1, 2)], goal := none, stars := [(2, 3)], start := (0, 0),
    facing := .down }

/-- No two integers written alike, and the older name of the budget. -/
def yardJson : Json :=
  .obj [("grid", .obj [("rows", .str " +03"), ("cols", .float ⟨0x4010000000000000⟩)]),
    ("max_blocks", .bool true), ("obstacles", .arr [.obj [("r", .int 1), ("c", .int 2)]]),
    ("goal", .null), ("stars", .arr [.obj [("c", .int 3), ("r", .int 2)]]),
    ("start", .obj [("r", .bool false), ("c", .int 0), ("dir", .str "DOWN")])]

def yardGrown : Json :=
  .obj [("mood", .str "glad"),
    ("grid", .obj [("rows", .str " +03"), ("depth", .int 9), ("cols", .float ⟨0x4010000000000000⟩)]),
    ("max_blocks", .bool true),
    ("obstacles", .arr [.obj [("r", .int 1), ("c", .int 2), ("dir", .null)]]),
    ("goal", .null), ("stars", .arr [.obj [("c", .int 3), ("r", .int 2)]]),
    ("start", .obj [("r", .bool false), ("c", .int 0), ("dir", .str "DOWN")])]

theorem validate_yardJson : validate strict yardJson = .ok yard := by
  have hthree : integer (.str " +03") = .ok 3 := by
    have hnumeral : Text.plainInteger? " +03".toList = some 3 := by decide +kernel
    rw [integer, hnumeral]
  have hgrid : grid [("rows", .str " +03"), ("cols", .float ⟨0x4010000000000000⟩)] = .ok (3, 4) :=
    grid_eq_ok_iff.mpr
      ⟨required_eq_ok_iff.mpr ⟨_, rfl, atLeast_eq_ok_iff.mpr ⟨hthree, by decide⟩⟩, rfl⟩
  have hdown : Text.Cased "down".toList "DOWN".toList :=
    .cons (.inr rfl) (.cons (.inr rfl) (.cons (.inr rfl) (.cons (.inr rfl) .nil)))
  have hstart : startCell strict [("r", .bool false), ("c", .int 0), ("dir", .str "DOWN")] =
      .ok ((0, 0), .down) :=
    startCell_eq_ok_iff.mpr ⟨rfl, within_eq_ok_iff.mpr (direction_of_cased hdown)⟩
  exact ofEntries_eq_ok_iff.mpr
    { id := rfl
      title := rfl
      description := rfl
      difficulty := rfl
      maxBlocks := rfl
      grid := required_eq_ok_iff.mpr ⟨_, rfl, object_eq_ok_iff.mpr ⟨_, rfl, hgrid⟩⟩
      obstacles := rfl
      goal := rfl
      stars := rfl
      start := required_eq_ok_iff.mpr ⟨_, rfl, object_eq_ok_iff.mpr ⟨_, rfl, hstart⟩⟩ }

theorem grown_yardJson : Grown yardJson yardGrown :=
  .object (.added (by decide) (.kept
    (fun _ => show SidesGrown _ _ from
      .object (.kept (fun _ => rfl) (.added (by decide) (.kept (fun _ => rfl) .nil))))
    (.kept (fun _ => rfl) (.kept
      (fun _ => show Json.ItemsGrown CellGrown _ _ from .list (.cons
        (.object (.kept (fun _ => rfl) (.kept (fun _ => rfl) (.added (by decide) .nil)))) .nil))
      (.kept (fun _ => show CellGrown _ _ from .same _)
        (.kept (fun _ => show Json.ItemsGrown CellGrown _ _ from .same _)
          (.kept (fun _ => show StartGrown _ _ from .same _) .nil)))))))

theorem validate_keeps_yard : validate true yardJson = .ok yard ∧ Grown yardJson yardGrown ∧
    Keeps true yard yardJson ∧ validate true yardGrown = .ok yard :=
  ⟨validate_yardJson, grown_yardJson, validate_keeps validate_yardJson,
    (validate_keeps validate_yardJson).grown yardGrown grown_yardJson⟩

end Challenge

end BlockGrid
