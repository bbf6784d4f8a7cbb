import BlockGrid.Proofs.Json.RoundTrip
import BlockGrid.Proofs.Trace.Ascending

/-!
# BlockGrid.Proofs.Trace.Meaning

What is read from the text that is stored of a value.

* `Attribute.Kind`     — the members that a set can have: integers, texts, tuples of integers.
* `Attribute.isPlain`  — no doubles, no bytes, and every set is of one kind.
* `Attribute.meaning`  — the value with lists for tuples and arrays, and ascending lists for sets.
* `Attribute.Reordered` — the same value, with the members of its sets listed in another order.
* `toJson_of_isPlain`, `alike_of_reordered` — both by recursion on the value.
* `text_reads_back`    — the text of a value is read as its meaning, in whatever order the members
  of sets were listed.
-/

namespace BlockGrid

namespace Attribute

/-! ## Members of sets -/

/-- Values that are compared with one another, and the form in which they are stored. -/
structure Kind (κ : Type) [LinearOrder κ] where
  key? : Attribute → Option κ
  form : κ → Json
  ordered : Json.Ordered form
  toJson_eq : ∀ {v k}, key? v = some k → v.toJson = .ok (form k)
  isPlain_form : ∀ k, (form k).isPlain = true

/-- Integers of any width. -/
def integer? : Attribute → Option Int
  | .int n => some n
  | .word n => some n
  | _ => none

def text? : Attribute → Option String
  | .str s => some s
  | _ => none

def integers? : Attribute → Option (List Int)
  | .tuple items => items.mapM integer?
  | _ => none

theorem toJson_of_integer? {v : Attribute} {n : Int} (h : v.integer? = some n) :
    v.toJson = .ok (.int n) := by
  cases v <;> cases h <;> rfl

theorem toJson_of_text? {v : Attribute} {s : String} (h : v.text? = some s) :
    v.toJson = .ok (.str s) := by
  cases v <;> cases h
  rfl

theorem toJsonAll_of_integer? {items : List Attribute} {ns : List Int}
    (h : items.mapM integer? = some ns) : toJsonAll items = .ok (ns.map .int) := by
  induction items generalizing ns with
  | nil => cases h; rfl
  | cons v items ih =>
    rw [List.mapM_cons] at h
    obtain ⟨n, hn, h⟩ := Option.bind_eq_some_iff.mp h
    obtain ⟨ms, hms, h⟩ := Option.bind_eq_some_iff.mp h
    cases h
    rw [toJsonAll, toJson_of_integer? hn, ih hms]
    rfl

theorem toJson_of_integers? {v : Attribute} {ns : List Int} (h : v.integers? = some ns) :
    v.toJson = .ok (.ofInts ns) := by
  cases v with
  | tuple items =>
    rw [toJson, toJsonAll_of_integer? h]
    rfl
  | _ => cases h

theorem arePlain_ints (ns : List Int) : Json.arePlain (ns.map .int) = true := by
  induction ns with
  | nil => rfl
  | cons n ns ih => exact ih

def integers : Kind Int := ⟨integer?, .int, Json.ordered_int, toJson_of_integer?, fun _ => rfl⟩

def texts : Kind String := ⟨text?, .str, Json.ordered_str, toJson_of_text?, fun _ => rfl⟩

def tuples : Kind (List Int) :=
  ⟨integers?, .ofInts, Json.ordered_ofInts, toJson_of_integers?, arePlain_ints⟩

namespace Kind

variable {κ : Type} [LinearOrder κ] (k : Kind κ) {items others : List Attribute}

/-- Whether all members are of this kind. -/
def covers (items : List Attribute) : Bool := items.all fun v => (k.key? v).isSome

/-- The members in ascending order, each once. -/
def sorted (items : List Attribute) : List Json :=
  ((items.filterMap k.key?).toFinset.sort (· ≤ ·)).map k.form

theorem toJsonAll_of_covers (h : k.covers items = true) :
    toJsonAll items = .ok ((items.filterMap k.key?).map k.form) := by
  induction items with
  | nil => rfl
  | cons v items ih =>
    rw [covers, List.all_cons, Bool.and_eq_true] at h
    obtain ⟨key, hkey⟩ := Option.isSome_iff_exists.mp h.1
    rw [toJsonAll, k.toJson_eq hkey, ih h.2, List.filterMap_cons_some hkey]
    rfl

theorem toJson_set (h : k.covers items = true) :
    (Attribute.set items).toJson = .ok (.arr (k.sorted items)) := by
  rw [toJson, k.toJsonAll_of_covers h]
  show (do let sorted ← Json.ascending _; pure (Json.arr sorted)) = _
  rw [Json.ascending_map k.ordered]
  rfl

theorem arePlain_sorted (items : List Attribute) : Json.arePlain (k.sorted items) = true := by
  rw [sorted]
  induction (items.filterMap k.key?).toFinset.sort (· ≤ ·) with
  | nil => rfl
  | cons key keys ih => rw [List.map_cons, Json.arePlain, k.isPlain_form, ih]; rfl

theorem covers_congr (h : ∀ m, m ∈ items ↔ m ∈ others) : k.covers others = k.covers items := by
  rw [Bool.eq_iff_iff, covers, covers, List.all_eq_true, List.all_eq_true]
  simp only [h]

theorem sorted_congr (h : ∀ m, m ∈ items ↔ m ∈ others) : k.sorted others = k.sorted items := by
  have hkeys : (others.filterMap k.key?).toFinset = (items.filterMap k.key?).toFinset := by
    ext key
    simp only [List.mem_toFinset, List.mem_filterMap, h]
  rw [sorted, hkeys, sorted]

end Kind

/-! ## Values of any depth -/

mutual

def isPlain : Attribute → Bool
  | .float _ => false
  | .torn _ _ _ => false
  | .bytes => false
  | .list items => arePlain items
  | .tuple items => arePlain items
  | .obj entries => decide (entries.map Prod.fst).Nodup && membersPlain entries
  | .set items => integers.covers items || texts.covers items || tuples.covers items
  | .array items => items.isPlain
  | _ => true

def arePlain : List Attribute → Bool
  | [] => true
  | v :: vs => isPlain v && arePlain vs

def membersPlain : List (String × Attribute) → Bool
  | [] => true
  | (_, v) :: es => isPlain v && membersPlain es

end

mutual

def meaning : Attribute → Json
  | .null => .null
  | .bool b => .bool b
  | .int n => .int n
  | .float x => .float x
  | .str s => .str s
  | .torn s h rest => .torn s h rest
  | .list items => .arr (meanings items)
  | .tuple items => .arr (meanings items)
  | .obj entries => .obj (memberMeanings entries)
  | .set items =>
    .arr (if integers.covers items then integers.sorted items
      else if texts.covers items then texts.sorted items
      else tuples.sorted items)
  | .array items => items
  | .word n => .int n
  | .bytes => .null

def meanings : List Attribute → List Json
  | [] => []
  | v :: vs => meaning v :: meanings vs

def memberMeanings : List (String × Attribute) → List (String × Json)
  | [] => []
  | (k, v) :: es => (k, meaning v) :: memberMeanings es

end

mutual

theorem toJson_of_isPlain (v : Attribute) (h : v.isPlain = true) : v.toJson = .ok v.meaning :=
  match v, h with
  | .null, _ | .bool _, _ | .int _, _ | .str _, _ | .array _, _ | .word _, _ => rfl
  | .list items, h => by rw [toJson, toJsonAll_of_arePlain items h]; rfl
  | .tuple items, h => by rw [toJson, toJsonAll_of_arePlain items h]; rfl
  | .obj entries, h => by
    rw [isPlain, Bool.and_eq_true] at h
    rw [toJson, toJsonEntries_of_membersPlain entries h.2]
    rfl
  | .set items, h => by
    rw [isPlain, Bool.or_eq_true, Bool.or_eq_true] at h
    rw [meaning]
    -- A set without any member is of every kind, and the first one is as good as the others.
    split
    next hintegers => exact integers.toJson_set hintegers
    next hintegers =>
      split
      next htexts => exact texts.toJson_set htexts
      next htexts => exact tuples.toJson_set (h.resolve_left (not_or.mpr ⟨hintegers, htexts⟩))

theorem toJsonAll_of_arePlain (vs : List Attribute) (h : arePlain vs = true) :
    toJsonAll vs = .ok (meanings vs) :=
  match vs, h with
  | [], _ => rfl
  | v :: vs, h => by
    rw [arePlain, Bool.and_eq_true] at h
    rw [toJsonAll, toJson_of_isPlain v h.1, toJsonAll_of_arePlain vs h.2]
    rfl

theorem toJsonEntries_of_membersPlain (es : List (String × Attribute))
    (h : membersPlain es = true) : toJsonEntries es = .ok (memberMeanings es) :=
  match es, h with
  | [], _ => rfl
  | (k, v) :: es, h => by
    rw [membersPlain, Bool.and_eq_true] at h
    rw [toJsonEntries, toJson_of_isPlain v h.1, toJsonEntries_of_membersPlain es h.2]
    rfl

end

theorem names_memberMeanings (es : List (String × Attribute)) :
    Entries.names (memberMeanings es) = es.map Prod.fst := by
  induction es with
  | nil => rfl
  | cons e es ih => exact congrArg (e.1 :: ·) ih

mutual

theorem isPlain_meaning (v : Attribute) (h : v.isPlain = true) : v.meaning.isPlain = true :=
  match v, h with
  | .null, _ | .bool _, _ | .int _, _ | .str _, _ | .word _, _ => rfl
  | .array _, h => h
  | .list items, h => arePlain_meanings items h
  | .tuple items, h => arePlain_meanings items h
  | .obj entries, h => by
    rw [isPlain, Bool.and_eq_true] at h
    rw [meaning, Json.isPlain, names_memberMeanings, h.1, membersPlain_meanings entries h.2]
    rfl
  | .set items, _ => by
    rw [meaning, Json.isPlain]
    split
    · exact integers.arePlain_sorted items
    · split
      · exact texts.arePlain_sorted items
      · exact tuples.arePlain_sorted items

theorem arePlain_meanings (vs : List Attribute) (h : arePlain vs = true) :
    Json.arePlain (meanings vs) = true :=
  match vs, h with
  | [], _ => rfl
  | v :: vs, h => by
    rw [arePlain, Bool.and_eq_true] at h
    rw [meanings, Json.arePlain, isPlain_meaning v h.1, arePlain_meanings vs h.2]
    rfl

theorem membersPlain_meanings (es : List (String × Attribute)) (h : membersPlain es = true) :
    Json.membersPlain (memberMeanings es) = true :=
  match es, h with
  | [], _ => rfl
  | (k, v) :: es, h => by
    rw [membersPlain, Bool.and_eq_true] at h
    rw [memberMeanings, Json.membersPlain, isPlain_meaning v h.1, membersPlain_meanings es h.2]
    rfl

end

/-! ## The order of members -/

/-- Sets with the same members, and whatever holds them. -/
inductive Reordered : Attribute → Attribute → Prop
  | refl (v : Attribute) : Reordered v v
  | list {vs ws : List Attribute} : List.Forall₂ Reordered vs ws → Reordered (.list vs) (.list ws)
  | tuple {vs ws : List Attribute} :
    List.Forall₂ Reordered vs ws → Reordered (.tuple vs) (.tuple ws)
  | obj {es fs : List (String × Attribute)} : es.map Prod.fst = fs.map Prod.fst →
    List.Forall₂ Reordered (es.map Prod.snd) (fs.map Prod.snd) → Reordered (.obj es) (.obj fs)
  | set {vs ws : List Attribute} : (∀ m, m ∈ vs ↔ m ∈ ws) → Reordered (.set vs) (.set ws)

mutual

theorem alike_of_reordered (v : Attribute) {w : Attribute} (h : v.Reordered w) :
    w.isPlain = v.isPlain ∧ w.meaning = v.meaning :=
  match v, h with
  | v, .refl _ => ⟨rfl, rfl⟩
  | .list vs, .list h => by
    obtain ⟨hplain, hmeanings⟩ := alike_of_forall₂ vs h
    exact ⟨hplain, congrArg Json.arr hmeanings⟩
  | .tuple vs, .tuple h => by
    obtain ⟨hplain, hmeanings⟩ := alike_of_forall₂ vs h
    exact ⟨hplain, congrArg Json.arr hmeanings⟩
  | .obj es, .obj hnames h => by
    obtain ⟨hplain, hmeanings⟩ := members_alike es hnames h
    exact ⟨by rw [isPlain, isPlain, hnames, hplain], congrArg Json.obj hmeanings⟩
  | .set vs, .set h => by
    simp only [isPlain, meaning, integers.covers_congr h, texts.covers_congr h,
      tuples.covers_congr h, integers.sorted_congr h, texts.sorted_congr h, tuples.sorted_congr h,
      and_self]

theorem alike_of_forall₂ (vs : List Attribute) {ws : List Attribute}
    (h : List.Forall₂ Reordered vs ws) : arePlain ws = arePlain vs ∧ meanings ws = meanings vs :=
  match vs, h with
  | [], .nil => ⟨rfl, rfl⟩
  | v :: vs, .cons hv hvs => by
    obtain ⟨hplain, hmeaning⟩ := alike_of_reordered v hv
    obtain ⟨hplains, hmeanings⟩ := alike_of_forall₂ vs hvs
    exact ⟨by rw [arePlain, arePlain, hplain, hplains],
      by rw [meanings, meanings, hmeaning, hmeanings]⟩

theorem members_alike (es : List (String × Attribute)) {fs : List (String × Attribute)}
    (hnames : es.map Prod.fst = fs.map Prod.fst)
    (h : List.Forall₂ Reordered (es.map Prod.snd) (fs.map Prod.snd)) :
    membersPlain fs = membersPlain es ∧ memberMeanings fs = memberMeanings es :=
  match es, fs, hnames, h with
  | [], [], _, _ => ⟨rfl, rfl⟩
  | (k, v) :: es, (l, w) :: fs, hnames, .cons hv h => by
    obtain ⟨hname, hnames⟩ := List.cons.inj hnames
    obtain ⟨hplain, hmeaning⟩ := alike_of_reordered v hv
    obtain ⟨hplains, hmeanings⟩ := members_alike es hnames h
    have hkl : k = l := hname
    exact ⟨by rw [membersPlain, membersPlain, hplain, hplains],
      by rw [memberMeanings, memberMeanings, hkl, hmeaning, hmeanings]⟩

end

theorem text_of_isPlain {v : Attribute} (h : v.isPlain = true) :
    v.text = .ok v.meaning.render := by
  rw [text, toJson_of_isPlain v h]
  rfl

/-- A value is stored as a text that is read as its meaning, and the order in which the members of
its sets were listed is not seen in the text. -/
theorem text_reads_back (v : Attribute) (h : v.isPlain = true) :
    ∃ text, v.text = .ok text ∧ Json.parse? text = some v.meaning ∧
      ∀ w, v.Reordered w → w.text = .ok text := by
  refine ⟨_, text_of_isPlain h, Json.parse?_render (isPlain_meaning v h), fun w hw => ?_⟩
  obtain ⟨hplain, hmeaning⟩ := alike_of_reordered v hw
  rw [text_of_isPlain (hplain.trans h), hmeaning]

/-- Cells that were gathered, with a few notes on them. -/
def gathered (cells : List Attribute) : Attribute :=
  .obj [("cells", .tuple [.set cells, .array (.arr [.arr [.int 0, .int (-1)], .arr []])]),
    ("café \n😀", .set [.str "é", .str "\"", .str "Z"]), ("seed", .word 7)]

theorem text_reads_back_gathered :
    (gathered [.tuple [.int 2, .int 0], .tuple [.int 1, .word 9]]).isPlain = true ∧
      ∃ text, (gathered [.tuple [.int 2, .int 0], .tuple [.int 1, .word 9]]).text = .ok text ∧
        Json.parse? text = some (.obj [
          ("cells", .arr [.arr [.arr [.int 1, .int 9], .arr [.int 2, .int 0]],
            .arr [.arr [.int 0, .int (-1)], .arr []]]),
          ("café \n😀", .arr [.str "\"", .str "Z", .str "é"]), ("seed", .int 7)]) ∧
        (gathered [.tuple [.int 1, .word 9], .tuple [.int 2, .int 0]]).text = .ok text := by
  have hplain : (gathered [.tuple [.int 2, .int 0], .tuple [.int 1, .word 9]]).isPlain = true := by
    decide
  have hmeaning := Except.ok.inj ((toJson_of_isPlain _ hplain).symm.trans rfl)
  have hswapped : Reordered (gathered [.tuple [.int 2, .int 0], .tuple [.int 1, .word 9]])
      (gathered [.tuple [.int 1, .word 9], .tuple [.int 2, .int 0]]) := by
    refine .obj rfl (.cons (.tuple (.cons (.set fun m => ?_) (.cons (.refl _) .nil)))
      (.cons (.refl _) (.cons (.refl _) .nil)))
    simp [or_comm]
  obtain ⟨text, htext, hparse, hreordered⟩ := text_reads_back _ hplain
  rw [hmeaning] at hparse
  exact ⟨hplain, text, htext, hparse, hreordered _ hswapped⟩

end Attribute

end BlockGrid
