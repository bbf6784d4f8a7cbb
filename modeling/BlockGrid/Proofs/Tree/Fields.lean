import BlockGrid.Proofs.Tree.Preorder

/-!
# BlockGrid.Proofs.Tree.Fields

Which field of a node is in use, and what comes of a node whose field is given and is no good.

* `Tree.Lacks`   — a field that is absent or null.
* `Tree.InUse`   — the first field, in the order of its names, that is not; `firstOf?_eq_some_iff`.
* `Tree.Misfit`  — a node with a field in use that holds no value of its kind.
* `Tree.Blank`   — a turn whose direction is given by an empty value, a zero or `false`.
* `misfit_kept`  — a misfit is kept as it is, wherever it stands; but a blank direction is read as if
  it were not given, and the node as a turn to the right.
-/

namespace BlockGrid

namespace Tree

variable {entries : List (String × Tree)} {name : String} {names : List String} {t v : Tree}
  {c : Command Tree}

/-! ## Fields in use -/

def Lacks (entries : List (String × Tree)) (name : String) : Prop :=
  field? name entries = none ∨ field? name entries = some .null

/-- The value under the first of some names, those that are lacking passed over. -/
inductive InUse (entries : List (String × Tree)) : List String → Tree → Prop where
  | here {name : String} {names : List String} {v : Tree} :
      field? name entries = some v → v ≠ .null → InUse entries (name :: names) v
  | later {name : String} {names : List String} {v : Tree} :
      Lacks entries name → InUse entries names v → InUse entries (name :: names) v

theorem isNull_iff : v.isNull = true ↔ v = .null := by
  cases v <;> simp [isNull]

theorem firstOf?_of_lacks (h : Lacks entries name) (names : List String) :
    firstOf? entries (name :: names) = firstOf? entries names := by
  rcases h with h | h
  · rw [firstOf?, h]
  · rw [firstOf?, h]
    rfl

theorem firstOf?_of_given (h : field? name entries = some v) (hv : v ≠ .null)
    (names : List String) : firstOf? entries (name :: names) = some v := by
  have hnull : ¬ v.isNull = true := fun hn => hv (isNull_iff.mp hn)
  rw [firstOf?, h]
  exact if_neg hnull

/-- Each field is lacking, or holds a value. -/
theorem lacks_or_given (entries : List (String × Tree)) (name : String) :
    Lacks entries name ∨ ∃ v, field? name entries = some v ∧ v ≠ .null := by
  cases hf : field? name entries with
  | none => exact .inl (.inl hf)
  | some v =>
    by_cases hv : v = .null
    · exact .inl (.inr (hv ▸ hf))
    · exact .inr ⟨v, rfl, hv⟩

theorem firstOf?_eq_some_iff : firstOf? entries names = some v ↔ InUse entries names v := by
  constructor
  · intro h
    induction names with
    | nil => cases h
    | cons name names ih =>
      rcases lacks_or_given entries name with hl | ⟨u, hu, hne⟩
      · rw [firstOf?_of_lacks hl] at h
        exact .later hl (ih h)
      · rw [firstOf?_of_given hu hne] at h
        cases h
        exact .here hu hne
  · intro h
    induction h with
    | here hv hne => exact firstOf?_of_given hv hne _
    | later hl _ ih => rw [firstOf?_of_lacks hl, ih]

theorem firstOf?_eq_none (h : ∀ name ∈ names, Lacks entries name) :
    firstOf? entries names = none := by
  induction names with
  | nil => rfl
  | cons name names ih =>
    obtain ⟨hname, hnames⟩ := List.forall_mem_cons.mp h
    rw [firstOf?_of_lacks hname, ih hnames]

theorem field?_of_inUse (h : InUse entries [name] v) :
    field? name entries = some v ∧ v ≠ .null := by
  cases h with
  | here hv hne => exact ⟨hv, hne⟩
  | later _ h => cases h

/-- A direction that is given counts unless it is empty, zero or false. -/
theorem turnField_of_inUse (h : InUse entries ["dir"] v) :
    turnField entries = if v.isTruthy then v else .str "right" := by
  rw [turnField, (field?_of_inUse h).1]

theorem turnField_of_lacks (h : Lacks entries "dir") : turnField entries = .str "right" := by
  rcases h with h | h
  · rw [turnField, h]
  · rw [turnField, h]
    rfl

/-! ## Misfits -/

/-- A move, a turn or a loop with a field in use that holds nothing of its kind: no positive number,
neither left nor right, a negative number or none, no sequence. -/
inductive Misfit (entries : List (String × Tree)) : Prop where
  | distance {v : Tree} : tag entries = "move" → InUse entries ["value", "steps"] v →
      (∀ d, Spells v d → d < 1) → Misfit entries
  | direction {v : Tree} : tag entries = "turn" → InUse entries ["dir"] v →
      v.keyword ∉ ["left", "right"] → Misfit entries
  | count {v : Tree} : tag entries = "repeat" → InUse entries ["times"] v →
      (∀ n, Spells v n → n < 0) → Misfit entries
  | body {v : Tree} : tag entries = "repeat" → InUse entries ["body", "commands", "do"] v →
      v.items? = none → Misfit entries

/-- A direction is given and yet counts as not given. -/
def Blank (entries : List (String × Tree)) : Prop :=
  tag entries = "turn" ∧ ∃ v, InUse entries ["dir"] v ∧ v.isTruthy = false

theorem not_means_of_misfit (h : Misfit entries) (hdir : ¬ Blank entries) (node : Node) :
    ¬ Means (.obj entries) node := by
  intro hm
  cases h with
  | distance htag hv hno =>
    obtain ⟨d, -, hd, h1⟩ := hm.of_move htag
    rw [distanceField, firstOf?_eq_some_iff.mpr hv] at hd
    exact absurd (hno d hd) (Int.not_lt.mpr h1)
  | @direction v htag hv hno =>
    obtain ⟨-, hway⟩ := hm.of_turn htag
    cases htruth : v.isTruthy with
    | false => exact hdir ⟨htag, v, hv, htruth⟩
    | true =>
      rw [turnField_of_inUse hv, htruth] at hway
      exact hno hway
  | count htag hv hno =>
    obtain ⟨n, body, -, hn, h0, -⟩ := hm.of_loop htag
    rw [countField, firstOf?_eq_some_iff.mpr hv] at hn
    exact absurd (hno n hn) (Int.not_lt.mpr h0)
  | body htag hv hno =>
    obtain ⟨n, body, -, -, -, hbody⟩ := hm.of_loop htag
    rw [bodyField, firstOf?_eq_some_iff.mpr hv] at hbody
    cases hno.symm.trans hbody

theorem readNode_of_misfit (h : Misfit entries) (hdir : ¬ Blank entries) :
    (∃ reason, (Tree.obj entries).readNode = .ok (unrecognized (.obj entries) reason)) ∨
    ∃ text, Stumbles (.obj entries) text ∧
      (Tree.obj entries).readNode = .error (.badNumeral text) := by
  cases nodeRead (.obj entries) with
  | means hm _ => exact absurd hm (not_means_of_misfit h hdir _)
  | kept _ hr => exact .inl ⟨_, hr⟩
  | stumbles hs hr => exact .inr ⟨_, hs, hr⟩

theorem inPlace_of_misfit (h : Misfit entries) (hdir : ¬ Blank entries)
    (hc : InPlace (.obj entries) c) : ∃ reason, c = .act (.unrecognized (.obj entries) reason) := by
  rcases readNode_of_misfit h hdir with ⟨reason, hr⟩ | ⟨text, -, hr⟩
  · exact ⟨reason, (inPlace_of_done hr c).mp hc⟩
  · exact absurd hc (not_inPlace_of_error hr)

theorem readNode_of_blank (h : Blank entries) :
    (Tree.obj entries).readNode = .ok (.done (.act (.turn "right"))) := by
  obtain ⟨htag, v, hv, htruth⟩ := h
  have hfield : (turnField entries).keyword = "right" := by
    rw [turnField_of_inUse hv, htruth]
    exact keyword_right
  have hmeans := Means.turn htag (by rw [hfield]; decide)
  rw [readNode_of_means hmeans, hfield]

end Tree

namespace Program

open BlockGrid.Tree

variable {t s : Tree} {nodes : List Tree} {p : Program Tree} {k : Nat}

/-- The command that stands in a program where its node stands in the tree. -/
theorem inPlace_at (hnodes : t.nodes? = some nodes) (h : ofTree t = .ok p)
    (hk : nodes[k]? = some s) : ∃ c, p[k]? = some c ∧ InPlace s c := by
  rw [ofTree_of_nodes hnodes] at h
  have hall := (readAll_ok_iff nodes p).mp h
  obtain ⟨hlt, hs⟩ := List.getElem?_eq_some_iff.mp hk
  have hlt' : k < p.length := hall.length_eq ▸ hlt
  have hplace : InPlace nodes[k] p[k] := hall.get hlt hlt'
  exact ⟨p[k], List.getElem?_eq_getElem hlt', hs ▸ hplace⟩

/-- A misfit is kept as it is, wherever it stands, unless its number is one at which the reading
stops. Only a direction that is given and counts as not given is no misfit to the reading: it makes
a turn to the right. -/
theorem misfit_kept (entries : List (String × Tree)) (h : Misfit entries) :
    (¬ Blank entries →
      ((∀ text, ¬ Stumbles (.obj entries) text) → ∃ c, InPlace (.obj entries) c) ∧
      (∀ c, InPlace (.obj entries) c →
        ∃ reason, c = .act (.unrecognized (.obj entries) reason)) ∧
      ∀ (t : Tree) (nodes : List Tree) (p : Program Tree) (k : Nat), t.nodes? = some nodes →
        nodes[k]? = some (.obj entries) → ofTree t = .ok p →
        ∃ reason, p[k]? = some (.act (.unrecognized (.obj entries) reason))) ∧
    (Blank entries → ∀ c, InPlace (.obj entries) c ↔ c = .act (.turn "right")) := by
  refine ⟨fun hdir => ⟨fun hno => ?_, fun c => inPlace_of_misfit h hdir, ?_⟩, fun hdir c => ?_⟩
  · rcases readNode_of_misfit h hdir with ⟨reason, hr⟩ | ⟨text, hs, -⟩
    · exact ⟨_, .node hr⟩
    · exact absurd hs (hno text)
  · intro t nodes p k hnodes hk hp
    obtain ⟨c, hc, hplace⟩ := inPlace_at hnodes hp hk
    obtain ⟨reason, rfl⟩ := inPlace_of_misfit h hdir hplace
    exact ⟨reason, hc⟩
  · exact inPlace_of_done (readNode_of_blank hdir) c

/-- A loop with an object where its body should be, under the second name for it. -/
def objectBody : List (String × Tree) :=
  [("cmd", .str "Repeat"), ("times", .int 2), ("body", .null), ("commands", .obj [])]

theorem misfit_kept_objectBody : Misfit objectBody ∧ ¬ Blank objectBody ∧
    ∃ p reason, ofTree (.list [.obj objectBody]) = .ok p ∧
      p[0]? = some (.act (.unrecognized (.obj objectBody) reason)) := by
  have hcased : Text.Cased "repeat".toList "Repeat".toList := by simp [Text.Cased]
  have hwords : Words "repeat" (.str "Repeat") := .text hcased (Text.Padded.refl _)
  have htag : tag objectBody = "repeat" := keyword_of_words hwords (by decide)
  have hmisfit : Misfit objectBody :=
    .body (v := .obj []) htag (.later (.inr rfl) (.here rfl nofun)) rfl
  have hblank : ¬ Blank objectBody := fun h => absurd (htag.symm.trans h.1) (by decide)
  obtain ⟨hreads, hkept, hplaced⟩ := (misfit_kept objectBody hmisfit).1 hblank
  obtain ⟨c, hc⟩ := hreads fun text hs => by
    cases hs with
    | move h' _ => exact absurd (htag.symm.trans h') (by decide)
    | loop _ hl => cases hl
  have hp : ofTree (.list [.obj objectBody]) = .ok [c] :=
    (ofTree_of_nodes rfl).trans ((readAll_ok_iff _ _).mpr (.cons hc .nil))
  obtain ⟨reason, hkept⟩ := hplaced _ _ _ 0 rfl rfl hp
  exact ⟨hmisfit, hblank, [c], reason, hp, hkept⟩

/-- A turn with an empty text for its direction. -/
def emptyWay : List (String × Tree) := [("cmd", .str "turn"), ("dir", .str "")]

/-- It is a misfit, and it is read as a turn to the right. -/
theorem emptyWay_not_kept : Misfit emptyWay ∧
    ofTree (.list [.obj emptyWay]) = .ok [.act (.turn "right")] ∧
    ¬ ∃ reason, InPlace (.obj emptyWay) (.act (.unrecognized (.obj emptyWay) reason)) := by
  have htag : tag emptyWay = "turn" := keyword_word (by decide)
  have huse : InUse emptyWay ["dir"] (.str "") := .here rfl nofun
  have hmisfit : Misfit emptyWay := .direction htag huse (by decide +kernel)
  have hblank : Blank emptyWay := ⟨htag, _, huse, rfl⟩
  have hplace := inPlace_of_done (readNode_of_blank hblank)
  refine ⟨hmisfit, ?_, ?_⟩
  · exact (ofTree_of_nodes rfl).trans
      ((readAll_ok_iff _ _).mpr (.cons ((hplace _).mpr rfl) .nil))
  · rintro ⟨reason, hc⟩
    cases (hplace _).mp hc

end Program

end BlockGrid
