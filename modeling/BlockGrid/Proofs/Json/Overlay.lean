import BlockGrid.Launch.Merge
import BlockGrid.Proofs.Json.Distinct

/-!
# BlockGrid.Proofs.Json.Overlay

One object laid over another.

* `Json.at?`           — what lies at a path of names, `Json.Ends` where a path ends in a value that
  is no object.
* `merge_cases`, `get?_mergeEntries`, `names_mergeEntries` — one level of a merge, by kinds of
  values, by name and in order.
* `ends_merge_iff`     — a value of the merge is one of the upper object, or one of the lower object
  that nothing in the upper one covers.
* `namesAt_merge`      — the names of an object in the merge: those below, then the new ones above.
* `merge_self`, `merge_merge` — by induction on the upper object.
* `layOver_settles`    — all of it, for two objects without repeated names.
-/

namespace BlockGrid

namespace Json

/-- What lies at the end of a path through objects. -/
def at? : List String → Json → Option Json
  | [], v => some v
  | name :: path, .obj es => (Entries.get? name es).bind (at? path)
  | _ :: _, _ => none

/-- The path leads to `x`, and cannot be followed any further. -/
def Ends (v : Json) (path : List String) (x : Json) : Prop :=
  at? path v = some x ∧ x.isObject = false

/-- The names of the object at a path, none where no object is. -/
def namesAt (v : Json) (path : List String) : List String :=
  match at? path v with
  | some (.obj es) => Entries.names es
  | _ => []

/-- Nothing on the way along the path, nor at its end, is anything but an object. -/
def Passes (v : Json) (path : List String) : Prop :=
  ∀ way, way <+: path → ∀ y, at? way v = some y → y.isObject = true

variable {name : String} {path : List String} {as bs es : Entries} {a b v w x : Json}

theorem isObject_iff : v.isObject = true ↔ ∃ es, v = .obj es := by
  cases v with
  | obj es => exact iff_of_true rfl ⟨es, rfl⟩
  | _ => exact iff_of_false nofun nofun

theorem at?_cons (name : String) (path : List String) (es : Entries) :
    at? (name :: path) (.obj es) = (Entries.get? name es).bind (at? path) := rfl

theorem at?_of_leaf (h : v.isObject = false) (name : String) (path : List String) :
    at? (name :: path) v = none := by
  cases v with
  | obj es => cases h
  | _ => rfl

theorem at?_cons_of_get? (h : Entries.get? name es = some v) (path : List String) :
    at? (name :: path) (.obj es) = at? path v := by
  rw [at?_cons, h, Option.bind_some]

theorem passes_cons_iff : Passes (.obj es) (name :: path) ↔
    ∀ v, Entries.get? name es = some v → v.Passes path := by
  constructor
  · intro h v hv way hway y hy
    exact h (name :: way) (List.cons_prefix_cons.mpr ⟨rfl, hway⟩) y
      ((at?_cons_of_get? hv way).trans hy)
  · intro h way hway y hy
    cases way with
    | nil =>
      cases hy
      rfl
    | cons other way =>
      obtain ⟨rfl, hprefix⟩ := List.cons_prefix_cons.mp hway
      obtain ⟨v, hv, hy⟩ := Option.bind_eq_some_iff.mp hy
      exact h v hv way hprefix y hy

theorem not_passes_of_leaf (h : v.isObject = false) : ¬ v.Passes path := by
  intro hpasses
  cases h.symm.trans (hpasses [] List.nil_prefix v rfl)

/-! ## One level -/

theorem merge_of_leaf (h : v.isObject = false) (base : Json) : merge base v = v := by
  cases v with
  | obj es => cases h
  | _ => rfl

theorem merge_onto_leaf (h : w.isObject = false) (v : Json) : merge w v = v := by
  cases v with
  | obj es =>
    cases w with
    | obj bs => cases h
    | _ => rfl
  | _ => rfl

/-- A value above hides what is below, unless both are objects. -/
theorem merge_cases (a b : Json) :
    (b.isObject = false ∧ merge a b = b) ∨ (a.isObject = false ∧ merge a b = b) ∨
      ∃ as bs, a = .obj as ∧ b = .obj bs ∧ merge a b = .obj (mergeEntries as bs) := by
  cases hb : b.isObject with
  | false => exact .inl ⟨rfl, merge_of_leaf hb a⟩
  | true =>
    cases ha : a.isObject with
    | false => exact .inr (.inl ⟨rfl, merge_onto_leaf ha b⟩)
    | true =>
      obtain ⟨as, rfl⟩ := isObject_iff.mp ha
      obtain ⟨bs, rfl⟩ := isObject_iff.mp hb
      exact .inr (.inr ⟨as, bs, rfl, rfl, rfl⟩)

/-- What is under a name in the merge: the value above, merged with the one below if there is one,
or what is below by itself. -/
def laid (below above : Option Json) : Option Json :=
  match above with
  | none => below
  | some v => some ((below.map fun w => merge w v).getD v)

theorem mergeEntries_cons (as : Entries) (name : String) (v : Json) (bs : Entries) :
    mergeEntries as ((name, v) :: bs) = mergeEntries
      (Entries.put name (((Entries.get? name as).map fun w => merge w v).getD v) as) bs := by
  rw [mergeEntries]
  cases Entries.get? name as <;> rfl

theorem get?_mergeEntries (as : Entries) (h : (Entries.names bs).Nodup) (name : String) :
    Entries.get? name (mergeEntries as bs) =
      laid (Entries.get? name as) (Entries.get? name bs) := by
  induction bs generalizing as with
  | nil => rfl
  | cons b bs ih =>
    obtain ⟨k, v⟩ := b
    obtain ⟨hk, hbs⟩ := List.nodup_cons.mp h
    rw [mergeEntries_cons, ih _ hbs, Entries.get?_put, Entries.get?_cons]
    split
    · -- The names that follow are other ones.
      subst name
      rw [Entries.get?_eq_none_iff.mpr hk]
      rfl
    · rfl

theorem names_mergeEntries (as : Entries) (h : (Entries.names bs).Nodup) :
    Entries.names (mergeEntries as bs) = Entries.names as ++
      (Entries.names bs).filter fun name => name ∉ Entries.names as := by
  induction bs generalizing as with
  | nil => exact (List.append_nil _).symm
  | cons b bs ih =>
    obtain ⟨k, v⟩ := b
    obtain ⟨hk, hbs⟩ := List.nodup_cons.mp h
    rw [mergeEntries_cons, ih _ hbs, Entries.names_put, Entries.names_cons]
    split
    · rw [List.filter_cons_of_neg (by simpa using ‹_›)]
    · rw [List.filter_cons_of_pos (by simpa using ‹_›), List.append_assoc, List.singleton_append]
      refine congrArg (fun rest => _ ++ k :: rest) (List.filter_congr fun name hname => ?_)
      have hne : name ≠ k := fun he => hk (he ▸ hname)
      simp only [List.mem_append, List.mem_singleton, hne, or_false]

theorem nodup_mergeEntries (ha : (Entries.names as).Nodup) (hb : (Entries.names bs).Nodup) :
    (Entries.names (mergeEntries as bs)).Nodup := by
  rw [names_mergeEntries as hb]
  refine List.nodup_append.mpr ⟨ha, hb.filter _, fun k hk l hl hkl => ?_⟩
  have hnew : l ∉ Entries.names as := by simpa using (List.mem_filter.mp hl).2
  exact hnew (hkl ▸ hk)

/-! ## Along a path -/

theorem ends_cons_iff : (Json.obj es).Ends (name :: path) x ↔
    ∃ v, Entries.get? name es = some v ∧ v.Ends path x := by
  rw [Ends, at?_cons, Option.bind_eq_some_iff]
  constructor
  · rintro ⟨⟨v, hv, hx⟩, hleaf⟩
    exact ⟨v, hv, hx, hleaf⟩
  · rintro ⟨v, hv, hx, hleaf⟩
    exact ⟨⟨v, hv, hx⟩, hleaf⟩

/-- A value of the lower object that the upper one leaves in place: no value of the upper one is in
its way, and nothing of it is where it stands. -/
def Uncovered (a b : Json) (path : List String) (x : Json) : Prop :=
  a.Ends path x ∧ b.Passes path ∧ at? path b = none

theorem not_ends_at_object (es : Entries) : ¬ (Json.obj es).Ends [] x := by
  rintro ⟨⟨⟩, hleaf⟩
  cases hleaf

/-- By induction on the path, whatever lies at its first step on either side. -/
theorem ends_merge_iff (ha : a.Tidy) (hb : b.Tidy) :
    (merge a b).Ends path x ↔ b.Ends path x ∨ Uncovered a b path x := by
  induction path generalizing a b with
  | nil =>
    have hno : ¬ Uncovered a b [] x := fun h => nomatch h.2.2
    rw [or_iff_left hno]
    obtain ⟨-, hmerge⟩ | ⟨-, hmerge⟩ | ⟨as, bs, rfl, rfl, hmerge⟩ := merge_cases a b
    · rw [hmerge]
    · rw [hmerge]
    · rw [hmerge]
      exact iff_of_false (not_ends_at_object _) (not_ends_at_object bs)
  | cons name path ih =>
    obtain ⟨hleaf, hmerge⟩ | ⟨hleaf, hmerge⟩ | ⟨as, bs, rfl, rfl, hmerge⟩ := merge_cases a b
    · rw [hmerge, or_iff_left fun h => not_passes_of_leaf hleaf h.2.1]
    · rw [hmerge, or_iff_left]
      intro h
      cases (at?_of_leaf hleaf name path).symm.trans h.1.1
    · have hlevel := get?_mergeEntries as hb.nodup name
      rw [hmerge, ends_cons_iff, hlevel, ends_cons_iff, Uncovered, ends_cons_iff,
        passes_cons_iff, at?_cons]
      cases hbn : Entries.get? name bs with
      | none => simp [laid]
      | some v =>
        have hv := hb.member hbn
        cases han : Entries.get? name as with
        | none => simp [laid]
        | some w =>
          have hw := ha.member han
          simpa [laid, Uncovered] using ih hw hv

theorem namesAt_leaf (h : v.isObject = false) : v.namesAt path = [] := by
  cases path with
  | nil => cases v with
    | obj es => cases h
    | _ => rfl
  | cons name path => rw [namesAt, at?_of_leaf h]

theorem namesAt_cons (name : String) (path : List String) (es : Entries) :
    (Json.obj es).namesAt (name :: path) =
      ((Entries.get? name es).map fun v => v.namesAt path).getD [] := by
  rw [namesAt, at?_cons]
  cases Entries.get? name es <;> rfl

/-- Where the merge has an object. -/
theorem namesAt_merge (ha : a.Tidy) (hb : b.Tidy) (h : at? path (merge a b) = some (.obj es)) :
    Entries.names es = a.namesAt path ++
      (b.namesAt path).filter fun name => name ∉ a.namesAt path := by
  induction path generalizing a b with
  | nil =>
    obtain ⟨hleaf, hmerge⟩ | ⟨hleaf, hmerge⟩ | ⟨as, bs, rfl, rfl, hmerge⟩ := merge_cases a b
    · rw [hmerge] at h
      cases h
      cases hleaf
    · rw [hmerge] at h
      cases h
      rw [namesAt_leaf hleaf]
      simp [namesAt, at?]
    · rw [hmerge] at h
      cases h
      exact names_mergeEntries as hb.nodup
  | cons name path ih =>
    obtain ⟨hleaf, hmerge⟩ | ⟨hleaf, hmerge⟩ | ⟨as, bs, rfl, rfl, hmerge⟩ := merge_cases a b
    · rw [hmerge, at?_of_leaf hleaf] at h
      cases h
    · rw [hmerge] at h
      rw [namesAt_leaf hleaf, namesAt, h]
      simp
    · rw [hmerge, at?_cons, get?_mergeEntries as hb.nodup name] at h
      rw [namesAt_cons, namesAt_cons]
      cases hbn : Entries.get? name bs with
      | none =>
        rw [hbn] at h
        cases han : Entries.get? name as with
        | none =>
          rw [han] at h
          cases h
        | some w =>
          rw [han] at h
          have hw : at? path w = some (.obj es) := h
          simp [namesAt, hw]
      | some v =>
        rw [hbn] at h
        cases han : Entries.get? name as with
        | none =>
          rw [han] at h
          have hv : at? path v = some (.obj es) := h
          simp [namesAt, hv]
        | some w =>
          rw [han] at h
          exact ih (ha.member han) (hb.member hbn) h

/-! ## Laws -/

theorem merge_self (h : a.Tidy) : merge a a = a := by
  induction h with
  | leaf h => exact merge_of_leaf h _
  | @object es hnodup hmembers ih =>
    have hnames : Entries.names (mergeEntries es es) = Entries.names es := by
      rw [names_mergeEntries es hnodup, List.filter_eq_nil_iff.mpr (by simp), List.append_nil]
    refine congrArg Json.obj (Entries.eq_of_get? (hnames ▸ hnodup) hnames fun name => ?_)
    rw [get?_mergeEntries es hnodup]
    cases hname : Entries.get? name es with
    | none => rfl
    | some v => exact congrArg some (ih _ (Entries.mem_of_get? hname))

/-- What has been laid over something changes nothing when it is laid over it again. -/
theorem merge_merge (ha : a.Tidy) (hb : b.Tidy) : merge (merge a b) b = merge a b := by
  induction hb generalizing a with
  | leaf h => rw [merge_of_leaf h, merge_of_leaf h]
  | @object bs hnodup hmembers ih =>
    cases hao : a.isObject with
    | false =>
      rw [merge_onto_leaf hao, merge_self (.object hnodup hmembers)]
    | true =>
      obtain ⟨as, rfl⟩ := isObject_iff.mp hao
      have hmerged := nodup_mergeEntries ha.nodup hnodup
      have hnames : Entries.names (mergeEntries (mergeEntries as bs) bs) =
          Entries.names (mergeEntries as bs) := by
        rw [names_mergeEntries _ hnodup, List.filter_eq_nil_iff.mpr, List.append_nil]
        intro name hname
        simp [names_mergeEntries as hnodup, hname, em]
      refine congrArg Json.obj (Entries.eq_of_get? (hnames ▸ hmerged) hnames fun name => ?_)
      rw [get?_mergeEntries _ hnodup, get?_mergeEntries as hnodup]
      cases hbn : Entries.get? name bs with
      | none => rfl
      | some v =>
        have hmem := Entries.mem_of_get? hbn
        cases han : Entries.get? name as with
        | none => exact congrArg some (merge_self (hmembers _ hmem))
        | some w => exact congrArg some (ih _ hmem (ha.member han))

/-- `m` is what comes of `b` laid over `a`: all values of `b`, those of `a` that it leaves in place,
and no others. The names of `a` keep their order, and new ones follow in the order of `b`. -/
structure Overlaid (a b m : Json) : Prop where
  above : ∀ path x, b.Ends path x → m.Ends path x
  below : ∀ path x, Uncovered a b path x → m.Ends path x
  only : ∀ path x, m.Ends path x → b.Ends path x ∨ Uncovered a b path x
  names : ∀ path es, at? path m = some (.obj es) →
    Entries.names es = a.namesAt path ++
      (b.namesAt path).filter fun name => name ∉ a.namesAt path

theorem overlaid_merge (ha : a.Tidy) (hb : b.Tidy) : Overlaid a b (merge a b) where
  above _ _ h := (ends_merge_iff ha hb).mpr (.inl h)
  below _ _ h := (ends_merge_iff ha hb).mpr (.inr h)
  only _ _ h := (ends_merge_iff ha hb).mp h
  names _ _ h := namesAt_merge ha hb h

theorem layOver_obj (as bs : Entries) :
    layOver (.obj as) (.obj bs) = .ok (merge (.obj as) (.obj bs)) := rfl

/-- Objects can always be laid over objects, and every clash between them is settled the same way at
every depth. A second time, or over the same object, or with nothing in it, an object changes
nothing. -/
theorem layOver_settles (ha : (Json.obj as).Tidy) (hb : (Json.obj bs).Tidy) :
    ∃ m, layOver (.obj as) (.obj bs) = .ok (.obj m) ∧
      Overlaid (.obj as) (.obj bs) (.obj m) ∧
      layOver (.obj m) (.obj bs) = .ok (.obj m) ∧
      layOver (.obj as) (.obj []) = .ok (.obj as) ∧
      layOver (.obj as) (.obj as) = .ok (.obj as) := by
  refine ⟨mergeEntries as bs, layOver_obj as bs, overlaid_merge ha hb, ?_, rfl, ?_⟩
  · rw [layOver_obj]
    exact congrArg Except.ok (merge_merge ha hb)
  · rw [layOver_obj, merge_self ha]

/-! ## Objects that meet other values -/

/-- An object next to values, one of them in a place where the other side has an object. -/
def lowerLayer : Entries :=
  [("pacing", .obj [("move", .int 4), ("turn", .int 2)]), ("name", .str "run"), ("log", .obj [])]

def upperLayer : Entries :=
  [("log", .bool false), ("pacing", .obj [("wait", .int 0), ("move", .int 1)]),
    ("name", .obj [("long", .null)])]

theorem tidy_of_leaves {es : Entries} (hnodup : (Entries.names es).Nodup)
    (h : es.all (fun e => !e.2.isObject) = true) : Tidy (.obj es) := by
  refine .object hnodup fun e he => .leaf ?_
  simpa using List.all_eq_true.mp h e he

theorem layOver_settles_layers :
    (Json.obj lowerLayer).Tidy ∧ (Json.obj upperLayer).Tidy ∧
      layOver (.obj lowerLayer) (.obj upperLayer) = .ok (.obj
        [("pacing", .obj [("move", .int 1), ("turn", .int 2), ("wait", .int 0)]),
          ("name", .obj [("long", .null)]), ("log", .bool false)]) ∧
      Overlaid (.obj lowerLayer) (.obj upperLayer) (.obj
        [("pacing", .obj [("move", .int 1), ("turn", .int 2), ("wait", .int 0)]),
          ("name", .obj [("long", .null)]), ("log", .bool false)]) := by
  have hlower : (Json.obj lowerLayer).Tidy :=
    .object (by decide) (List.forall_mem_cons.mpr ⟨tidy_of_leaves (by decide) (by decide),
      List.forall_mem_cons.mpr ⟨.leaf rfl, List.forall_mem_singleton.mpr tidy_empty⟩⟩)
  have hupper : (Json.obj upperLayer).Tidy :=
    .object (by decide) (List.forall_mem_cons.mpr ⟨.leaf rfl,
      List.forall_mem_cons.mpr ⟨tidy_of_leaves (by decide) (by decide),
        List.forall_mem_singleton.mpr (tidy_of_leaves (by decide) (by decide))⟩⟩)
  obtain ⟨m, hm, hover, -⟩ := layOver_settles hlower hupper
  have hlaid : layOver (.obj lowerLayer) (.obj upperLayer) = .ok (.obj
      [("pacing", .obj [("move", .int 1), ("turn", .int 2), ("wait", .int 0)]),
        ("name", .obj [("long", .null)]), ("log", .bool false)]) := by
    simp [layOver_obj, lowerLayer, upperLayer, merge, mergeEntries, Entries.get?, Entries.put]
  cases hlaid.symm.trans hm
  exact ⟨hlower, hupper, hlaid, hover⟩

end Json

end BlockGrid
