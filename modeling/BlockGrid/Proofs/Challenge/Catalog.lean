import BlockGrid.Challenge.Catalog
import BlockGrid.Proofs.Challenge.Descriptor
import Mathlib.Data.List.Induction
import Mathlib.Data.List.Nodup

/-!
# BlockGrid.Proofs.Challenge.Catalog

Documents and the catalogs that they are read as.

* `Challenge.idOf`     — the id that a descriptor gives.
* `Catalog.Faultless`  — descriptors of challenges, no id twice; `Catalog.FirstFault`, what is wrong
  with the first one that is not so.
* `load_append`        — faultless entries are taken in, whatever follows them.
* `faultless_or_fault` — there is no third case.
* `Catalog.Holds`      — what can be asked of a catalog of given entries.
* `ofJson_decides`     — the answer to every document.
-/

namespace BlockGrid

/-- The text under `id`, or what stands for it where it is left out. -/
def Challenge.idOf (v : Json) : LooseText := ((v.get? "id").bind Json.text?).getD (.whole "custom")

theorem Challenge.id_of_validate {strict : Bool} {v : Json} {d : Challenge}
    (h : validate strict v = .ok d) : d.id = idOf v := by
  obtain ⟨es, rfl, hread⟩ := validate_eq_ok_iff.mp h
  have hid := hread.id
  rw [Checked.optional] at hid
  rw [idOf, Json.get?]
  split at hid
  · rename_i v hv
    obtain ⟨rfl, -⟩ := Checked.string_eq_ok_iff.mp (Checked.within_eq_ok_iff.mp hid)
    rw [hv]
    cases d.id <;> rfl
  · rename_i hnone
    rw [hnone]
    exact (Except.ok.inj hid).symm

namespace Catalog

open Challenge

variable {strict : Bool} {c taken : Catalog} {d : Challenge} {ds : List Challenge}
  {v document : Json} {vs entries : List Json} {e : CatalogError} {id : LooseText}

/-! ## Taking entries in -/

/-- Each descriptor with the challenge that it describes. -/
def Describes (strict : Bool) (vs : List Json) (ds : List Challenge) : Prop :=
  List.Forall₂ (fun v d => validate strict v = .ok d) vs ds

theorem Describes.ids (h : Describes strict vs ds) : ds.map Challenge.id = vs.map idOf := by
  induction h with
  | nil => rfl
  | cons hd _ ih => rw [List.map_cons, List.map_cons, id_of_validate hd, ih]

theorem Describes.exists_of_mem (h : Describes strict vs ds) (hv : v ∈ vs) :
    ∃ d ∈ ds, validate strict v = .ok d := by
  induction h with
  | nil => cases hv
  | cons hd _ ih =>
    rcases List.mem_cons.mp hv with rfl | hv
    · exact ⟨_, List.mem_cons_self, hd⟩
    · obtain ⟨d, hmem, hvalid⟩ := ih hv
      exact ⟨d, List.mem_cons_of_mem _ hmem, hvalid⟩

theorem exists_describes (h : ∀ v ∈ vs, ∃ d, validate strict v = .ok d) :
    ∃ ds, Describes strict vs ds := by
  induction vs with
  | nil => exact ⟨[], .nil⟩
  | cons v vs ih =>
    obtain ⟨d, hd⟩ := h v List.mem_cons_self
    obtain ⟨ds, hds⟩ := ih fun u hu => h u (List.mem_cons_of_mem v hu)
    exact ⟨d :: ds, .cons hd hds⟩

theorem contains_iff : c.contains id = true ↔ id ∈ c.ids := List.contains_iff_mem

theorem ids_mk_append : ids ⟨taken.challenges ++ ds⟩ = taken.ids ++ ds.map Challenge.id :=
  List.map_append

theorem load_cons_fresh {i : Nat} (hd : validate strict v = .ok d) (hfresh : d.id ∉ taken.ids) :
    load strict taken i (v :: vs) = load strict ⟨taken.challenges ++ [d]⟩ (i + 1) vs := by
  rw [load, hd]
  exact if_neg fun hcontains => hfresh (contains_iff.mp hcontains)

/-- Distinct ids are taken in one after the other. -/
theorem load_append (h : Describes strict vs ds) (hnodup : (taken.ids ++ ds.map Challenge.id).Nodup)
    (i : Nat) (rest : List Json) :
    load strict taken i (vs ++ rest) =
      load strict ⟨taken.challenges ++ ds⟩ (i + vs.length) rest := by
  induction h generalizing taken i with
  | nil => rw [List.append_nil, List.nil_append, List.length_nil, Nat.add_zero]
  | @cons v d vs ds hd _ ih =>
    -- Ids already taken and ids still to come are distinct all together, before and after the step.
    have hfresh : d.id ∉ taken.ids := fun hmem =>
      List.disjoint_of_nodup_append hnodup hmem List.mem_cons_self
    have hnext : (ids ⟨taken.challenges ++ [d]⟩ ++ ds.map Challenge.id).Nodup := by
      rw [ids_mk_append, List.append_assoc]
      exact hnodup
    rw [List.cons_append, load_cons_fresh hd hfresh, ih hnext, List.append_assoc, List.length_cons,
      Nat.add_assoc, Nat.add_comm 1]
    rfl

/-! ## Faults -/

structure Faultless (strict : Bool) (entries : List Json) : Prop where
  valid : ∀ v ∈ entries, ∃ d, validate strict v = .ok d
  distinct : (entries.map idOf).Nodup

/-- What is wrong with the first entry that is invalid or has the id of one before it. -/
inductive FirstFault (strict : Bool) (entries : List Json) : CatalogError → Prop where
  | invalid {before after : List Json} {v : Json} {issues : List Issue} :
      entries = before ++ v :: after → Faultless strict before → validate strict v = .error issues →
      FirstFault strict entries (.invalid before.length issues)
  | duplicate {before after : List Json} {v : Json} {d : Challenge} :
      entries = before ++ v :: after → Faultless strict before → validate strict v = .ok d →
      idOf v ∈ before.map idOf → FirstFault strict entries (.duplicate (idOf v))

theorem FirstFault.append (h : FirstFault strict entries e) (vs : List Json) :
    FirstFault strict (entries ++ vs) e := by
  cases h with
  | invalid hentries hbefore hv =>
    exact .invalid (by rw [hentries, List.append_assoc, List.cons_append]) hbefore hv
  | duplicate hentries hbefore hv hmem =>
    exact .duplicate (by rw [hentries, List.append_assoc, List.cons_append]) hbefore hv hmem

theorem Faultless.snoc (h : Faultless strict entries) (hv : validate strict v = .ok d)
    (hfresh : idOf v ∉ entries.map idOf) : Faultless strict (entries ++ [v]) where
  valid := by
    intro u hu
    rcases List.mem_append.mp hu with hu | hu
    · exact h.valid u hu
    · exact ⟨d, List.mem_singleton.mp hu ▸ hv⟩
  distinct := by
    rw [List.map_append, List.map_singleton]
    exact List.nodup_append.mpr ⟨h.distinct, List.nodup_singleton _, fun a ha b hb hab =>
      hfresh (List.mem_singleton.mp hb ▸ hab ▸ ha)⟩

theorem faultless_or_fault (entries : List Json) :
    Faultless strict entries ∨ ∃ e, FirstFault strict entries e := by
  -- From the end: what is wrong with the entries before the last stays the first fault.
  induction entries using List.reverseRecOn with
  | nil => exact .inl ⟨nofun, .nil⟩
  | append_singleton entries v ih =>
    rcases ih with hentries | ⟨e, he⟩
    · cases hv : validate strict v with
      | error issues => exact .inr ⟨_, .invalid rfl hentries hv⟩
      | ok d =>
        by_cases hid : idOf v ∈ entries.map idOf
        · exact .inr ⟨_, .duplicate rfl hentries hv hid⟩
        · exact .inl (hentries.snoc hv hid)
    · exact .inr ⟨e, he.append [v]⟩

theorem Faultless.load_append (h : Faultless strict entries) (rest : List Json) :
    ∃ ds, Describes strict entries ds ∧
      load strict ⟨[]⟩ 0 (entries ++ rest) = load strict ⟨ds⟩ entries.length rest := by
  obtain ⟨ds, hds⟩ := exists_describes h.valid
  have hnodup : (ids ⟨[]⟩ ++ ds.map Challenge.id).Nodup := hds.ids ▸ h.distinct
  have hload := Catalog.load_append hds hnodup 0 rest
  rw [Nat.zero_add] at hload
  exact ⟨ds, hds, hload⟩

theorem Faultless.load_eq (h : Faultless strict entries) :
    ∃ ds, Describes strict entries ds ∧ load strict ⟨[]⟩ 0 entries = .ok ⟨ds⟩ := by
  obtain ⟨ds, hds, hload⟩ := h.load_append []
  rw [List.append_nil] at hload
  exact ⟨ds, hds, hload⟩

theorem FirstFault.load_eq (h : FirstFault strict entries e) :
    load strict ⟨[]⟩ 0 entries = .error e := by
  cases h with
  | @invalid before after v issues hentries hbefore hv =>
    obtain ⟨ds, -, hload⟩ := hbefore.load_append (v :: after)
    rw [hentries, hload, load, hv]
  | @duplicate before after v d hentries hbefore hv hmem =>
    obtain ⟨ds, hds, hload⟩ := hbefore.load_append (v :: after)
    have hseen : contains ⟨ds⟩ d.id = true := by
      rw [contains_iff, ids, hds.ids, id_of_validate hv]
      exact hmem
    rw [hentries, hload, load, hv]
    show (if contains ⟨ds⟩ d.id then _ else _) = _
    rw [if_pos hseen, id_of_validate hv]

/-! ## Looking up -/

theorem get_of_mem (hnodup : c.ids.Nodup) (hd : d ∈ c.challenges) : c.get d.id = .ok d := by
  rw [get, get?]
  cases hfind : c.challenges.find? (fun other => other.id == d.id) with
  | none => exact absurd (beq_self_eq_true d.id) (List.find?_eq_none.mp hfind d hd)
  | some other =>
    have hsame := List.find?_some hfind
    have hid : other.id = d.id := beq_iff_eq.mp hsame
    rw [List.inj_on_of_nodup_map hnodup (List.mem_of_find?_eq_some hfind) hd hid]

theorem get_of_not_mem (h : id ∉ c.ids) : c.get id = .error ⟨id, c.ids⟩ := by
  have hfind : c.challenges.find? (fun other => other.id == id) = none := by
    rw [List.find?_eq_none]
    intro d hd hid
    exact h (List.mem_map.mpr ⟨d, hd, beq_iff_eq.mp hid⟩)
  rw [get, get?, hfind]

theorem build_of_get (h : c.get id = .ok d) : c.build id = d.world.mapError .layout := by
  rw [build, h]
  rfl

theorem build_of_not_mem (h : id ∉ c.ids) : c.build id = .error (.unknown ⟨id, c.ids⟩) := by
  rw [build, get_of_not_mem h]
  rfl

/-! ## Documents -/

/-- An object with a list under `challenges`. -/
def IsCatalog (document : Json) (entries : List Json) : Prop :=
  ∃ es, document = .obj es ∧ Entries.get? "challenges" es = some (.arr entries)

theorem ofJson_of_isCatalog (h : IsCatalog document entries) :
    ofJson strict document = load strict ⟨[]⟩ 0 entries := by
  obtain ⟨es, rfl, hentries⟩ := h
  simp only [ofJson, Json.get?, hentries]

theorem ofJson_of_not_isCatalog (h : ¬∃ entries, IsCatalog document entries) :
    ofJson strict document = .error .notCatalog := by
  rw [ofJson]
  split
  · rename_i entries hentries
    cases document with
    | obj es => exact absurd ⟨entries, es, rfl, hentries⟩ h
    | _ => cases hentries
  · rfl

/-- What a catalog of the given entries answers. -/
structure Holds (strict : Bool) (c : Catalog) (entries : List Json) : Prop where
  size : c.size = entries.length
  challenges : Describes strict entries c.challenges
  get : ∀ v ∈ entries, ∃ d, validate strict v = .ok d ∧ c.get (idOf v) = .ok d
  contains : ∀ id, c.contains id = true ↔ id ∈ entries.map idOf
  build : ∀ v ∈ entries, ∃ board : Except LayoutError World,
    c.build (idOf v) = board.mapError .layout ∧ World.ofDescriptor strict v = board.mapError .layout
  unknown : ∀ id, id ∉ entries.map idOf →
    c.get id = .error ⟨id, c.ids⟩ ∧ c.build id = .error (.unknown ⟨id, c.ids⟩)

theorem holds_of_describes (h : Describes strict entries ds) (hnodup : (entries.map idOf).Nodup) :
    Holds strict ⟨ds⟩ entries := by
  have hids : ids ⟨ds⟩ = entries.map idOf := h.ids
  have hget : ∀ v ∈ entries, ∃ d,
      validate strict v = .ok d ∧ Catalog.get ⟨ds⟩ (idOf v) = .ok d := by
    intro v hv
    obtain ⟨d, hd, hvalid⟩ := h.exists_of_mem hv
    exact ⟨d, hvalid, id_of_validate hvalid ▸ get_of_mem (hids ▸ hnodup) hd⟩
  refine
    { size := h.length_eq.symm
      challenges := h
      get := hget
      contains := fun id => hids ▸ contains_iff
      build := ?_
      unknown := fun id hid =>
        ⟨get_of_not_mem (hids ▸ hid), build_of_not_mem (hids ▸ hid)⟩ }
  intro v hv
  obtain ⟨d, hvalid, hd⟩ := hget v hv
  exact ⟨d.world, build_of_get hd, ofDescriptor_of_validate hvalid⟩

theorem faultless_or_refused (h : IsCatalog document entries) :
    (Faultless strict entries ∧ ∃ ds, Describes strict entries ds ∧
      ofJson strict document = .ok ⟨ds⟩) ∨
      ∃ e, FirstFault strict entries e ∧ ofJson strict document = .error e := by
  rw [ofJson_of_isCatalog h]
  rcases faultless_or_fault entries with hentries | ⟨e, he⟩
  · exact .inl ⟨hentries, hentries.load_eq⟩
  · exact .inr ⟨e, he, he.load_eq⟩

theorem IsCatalog.unique {entries' : List Json} (h : IsCatalog document entries)
    (h' : IsCatalog document entries') : entries = entries' := by
  obtain ⟨es, rfl, hentries⟩ := h
  obtain ⟨es', hes, hentries'⟩ := h'
  cases hes
  rw [hentries] at hentries'
  cases hentries'
  rfl

theorem exists_of_ofJson_eq_ok (h : ofJson strict document = .ok c) :
    ∃ entries, IsCatalog document entries ∧ Faultless strict entries ∧ Holds strict c entries := by
  by_cases hdocument : ∃ entries, IsCatalog document entries
  · obtain ⟨entries, hentries⟩ := hdocument
    rcases faultless_or_refused hentries with ⟨hfaultless, ds, hds, hok⟩ | ⟨e, -, herror⟩
    · cases hok.symm.trans h
      exact ⟨entries, hentries, hfaultless, holds_of_describes hds hfaultless.distinct⟩
    · cases herror.symm.trans h
  · cases (ofJson_of_not_isCatalog hdocument).symm.trans h

theorem ofJson_answers_iff :
    (∃ c, ofJson strict document = .ok c) ↔
      ∃ entries, IsCatalog document entries ∧ Faultless strict entries := by
  constructor
  · rintro ⟨c, hc⟩
    obtain ⟨entries, hentries, hfaultless, -⟩ := exists_of_ofJson_eq_ok hc
    exact ⟨entries, hentries, hfaultless⟩
  · rintro ⟨entries, hentries, hfaultless⟩
    obtain ⟨ds, -, hload⟩ := hfaultless.load_eq
    exact ⟨⟨ds⟩, (ofJson_of_isCatalog hentries).trans hload⟩

theorem ofJson_eq_error_iff : ofJson strict document = .error e ↔
    (e = .notCatalog ∧ ¬∃ entries, IsCatalog document entries) ∨
      ∃ entries, IsCatalog document entries ∧ FirstFault strict entries e := by
  constructor
  · intro h
    by_cases hdocument : ∃ entries, IsCatalog document entries
    · obtain ⟨entries, hentries⟩ := hdocument
      rcases faultless_or_refused hentries with ⟨-, ds, -, hok⟩ | ⟨e', hfault, herror⟩
      · cases hok.symm.trans h
      · cases herror.symm.trans h
        exact .inr ⟨entries, hentries, hfault⟩
    · cases (ofJson_of_not_isCatalog hdocument).symm.trans h
      exact .inl ⟨rfl, hdocument⟩
  · rintro (⟨rfl, hdocument⟩ | ⟨entries, hentries, hfault⟩)
    · exact ofJson_of_not_isCatalog hdocument
    · exact (ofJson_of_isCatalog hentries).trans hfault.load_eq

/-- A document is read when it is a list of descriptors without faults, and is refused for its first
fault otherwise. What was read answers as the entries say. -/
theorem ofJson_decides (strict : Bool) (document : Json) :
    ((∃ c, ofJson strict document = .ok c) ↔
      ∃ entries, IsCatalog document entries ∧ Faultless strict entries) ∧
    (∀ e, ofJson strict document = .error e ↔
      (e = .notCatalog ∧ ¬∃ entries, IsCatalog document entries) ∨
        ∃ entries, IsCatalog document entries ∧ FirstFault strict entries e) ∧
    ∀ c entries, ofJson strict document = .ok c → IsCatalog document entries →
      Holds strict c entries := by
  refine ⟨ofJson_answers_iff, fun e => ofJson_eq_error_iff, ?_⟩
  intro c entries hc hentries
  obtain ⟨entries', hentries', -, hholds⟩ := exists_of_ofJson_eq_ok hc
  exact hentries'.unique hentries ▸ hholds

/-- A board of one cell. -/
def nookJson : Json :=
  .obj [("id", .str "nook"), ("grid", .obj [("rows", .int 1), ("cols", .int 1)]),
    ("start", .obj [("r", .int 0), ("c", .int 0)])]

theorem validate_nookJson : ∃ d, validate strict nookJson = .ok d := ⟨_, rfl⟩

theorem faultless_yards : Faultless strict [yardJson, nookJson] where
  valid := by
    intro v hv
    rcases List.mem_pair.mp hv with rfl | rfl
    · exact ⟨yard, validate_yardJson⟩
    · exact validate_nookJson
  distinct := by decide

/-- Two challenges, one of them without an id, and the same with a second one that has none. -/
theorem ofJson_decides_yards :
    (∃ c, ofJson true (.obj [("challenges", .arr [yardJson, nookJson])]) = .ok c ∧
      Holds true c [yardJson, nookJson]) ∧
    ofJson true (.obj [("challenges", .arr [yardJson, nookJson, yardGrown])]) =
      .error (.duplicate (.whole "custom")) := by
  have hentries : ∀ vs, IsCatalog (.obj [("challenges", .arr vs)]) vs := fun vs => ⟨_, rfl, rfl⟩
  have hlast : validate true yardGrown = .ok yard :=
    (validate_grown grown_yardJson).symm.trans validate_yardJson
  constructor
  · obtain ⟨c, hc⟩ := (ofJson_decides true _).1.mpr ⟨_, hentries _, faultless_yards⟩
    exact ⟨c, hc, (ofJson_decides true _).2.2 c _ hc (hentries _)⟩
  · refine ((ofJson_decides true _).2.1 _).mpr (.inr ⟨_, hentries _, ?_⟩)
    exact .duplicate rfl faultless_yards hlast (by decide)

end Catalog

end BlockGrid
