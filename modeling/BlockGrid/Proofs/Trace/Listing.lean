import BlockGrid.Proofs.Trace.Failures
import Mathlib.Data.List.Sort
import Mathlib.Data.String.Basic

/-!
# BlockGrid.Proofs.Trace.Listing

The order in which runs are listed.

* `names_eq`           — names are listed in the order of texts.
* `lt_of_ofDigitChars` — of two numerals of one length, the text that comes first stands for less.
* `runName_lt`         — four digits are enough below ten thousand, so there names come in the order
  of their numbers. The name after them comes before the last of them (`runName_tenThousand`).
* `Numbered.written`   — the names that the writes of a session return are those of its runs.
* `listed_in_order_iff` — so the names are listed as they were returned just when there are no more
  than ten thousand of them and no write has left a name of its own behind.
-/

namespace BlockGrid

namespace Store

variable {s : Store} {runs : List Entry} {stuck : Bool}

/-! ## The order of names -/

theorem insertName_eq (name : String) (ns : List String) :
    insertName name ns = ns.orderedInsert (· ≤ ·) name := by
  induction ns with
  | nil => rfl
  | cons n ns ih => rw [insertName, List.orderedInsert_cons, ih]

theorem names_eq (s : Store) : s.names = (s.entries.map Prod.fst).insertionSort (· ≤ ·) := by
  rw [names, List.insertionSort]
  congr 1
  funext name ns
  exact insertName_eq name ns

theorem perm_names (s : Store) : s.names.Perm (s.entries.map Prod.fst) := by
  rw [names_eq]
  exact List.perm_insertionSort _ _

theorem ascending_names (s : Store) : s.names.Pairwise (· ≤ ·) := by
  rw [names_eq]
  exact List.pairwise_insertionSort _ _

/-! ## The order of numerals -/

theorem digit_bounds {c : Char} (h : c.isDigit = true) :
    '0'.toNat ≤ c.toNat ∧ c.toNat < '0'.toNat + 10 := by
  rw [Char.isDigit, Bool.and_eq_true, decide_eq_true_iff, decide_eq_true_iff] at h
  exact ⟨h.1, Nat.lt_succ_of_le h.2⟩

/-- What is read first weighs most. -/
theorem ofDigitChars_lt {ds es : List Char} (hds : ∀ c ∈ ds, c.isDigit = true)
    (hlength : ds.length = es.length) {a b : Nat} (hab : a < b) :
    Nat.ofDigitChars 10 ds a < Nat.ofDigitChars 10 es b := by
  induction ds generalizing es a b with
  | nil =>
    obtain rfl := List.length_eq_zero_iff.mp hlength.symm
    exact hab
  | cons d ds ih =>
    obtain ⟨e, es, rfl⟩ := List.exists_cons_of_length_eq_add_one hlength.symm
    rw [Nat.ofDigitChars_cons, Nat.ofDigitChars_cons]
    have hd := digit_bounds (hds d List.mem_cons_self)
    exact ih (fun c hc => hds c (List.mem_cons_of_mem d hc)) (Nat.succ.inj hlength) (by omega)

theorem lt_of_ofDigitChars {ds es : List Char} (hes : ∀ c ∈ es, c.isDigit = true)
    (hds : ∀ c ∈ ds, c.isDigit = true) (hlength : ds.length = es.length) {a : Nat}
    (h : Nat.ofDigitChars 10 ds a < Nat.ofDigitChars 10 es a) : ds < es := by
  induction ds generalizing es a with
  | nil =>
    obtain rfl := List.length_eq_zero_iff.mp hlength.symm
    exact absurd h (Nat.lt_irrefl _)
  | cons d ds ih =>
    obtain ⟨e, es, rfl⟩ := List.exists_cons_of_length_eq_add_one hlength.symm
    rw [Nat.ofDigitChars_cons, Nat.ofDigitChars_cons] at h
    have hds' : ∀ c ∈ ds, c.isDigit = true := fun c hc => hds c (List.mem_cons_of_mem d hc)
    have hes' : ∀ c ∈ es, c.isDigit = true := fun c hc => hes c (List.mem_cons_of_mem e hc)
    rw [List.cons_lt_cons_iff]
    rcases lt_trichotomy d e with hlt | rfl | hgt
    · exact .inl hlt
    · exact .inr ⟨rfl, ih hes' hds' (Nat.succ.inj hlength) h⟩
    · -- The greater digit in front would make the greater number.
      have hnat : e.toNat < d.toNat := hgt
      have hzero := (digit_bounds (hes e List.mem_cons_self)).1
      exact absurd (ofDigitChars_lt hes' (Nat.succ.inj hlength).symm (by omega)) (Nat.lt_asymm h)

theorem length_zeroPadded {n : Nat} (h : n < 10000) : (zeroPadded 4 n).length = 4 := by
  have hlength : (Nat.toDigits 10 n).length ≤ 4 :=
    (Nat.length_toDigits_le_iff (by decide) (by decide)).mpr h
  rw [zeroPadded, if_neg (by omega), List.length_leftpad, Int.natAbs_natCast]
  omega

theorem isDigit_of_mem_zeroPadded {n : Nat} {c : Char} (h : c ∈ zeroPadded 4 n) :
    c.isDigit = true := by
  rw [zeroPadded, if_neg (by omega)] at h
  exact isDigit_of_mem_leftpad h

theorem ofDigitChars_zeroPadded (n : Nat) : Nat.ofDigitChars 10 (zeroPadded 4 n) 0 = n := by
  rw [zeroPadded, if_neg (by omega), Int.natAbs_natCast, ofDigitChars_leftpad]

theorem runName_lt {m n : Nat} (h : m < n) (hn : n < 10000) : runName m < runName n := by
  have hm : m < 10000 := Nat.lt_trans h hn
  rw [String.lt_iff_toList_lt, toList_runName, toList_runName]
  refine List.append_left_lt (lt_of_ofDigitChars (a := 0) ?_ ?_ ?_ ?_)
  · exact fun c => isDigit_of_mem_zeroPadded
  · exact fun c => isDigit_of_mem_zeroPadded
  · rw [length_zeroPadded hm, length_zeroPadded hn]
  · rw [ofDigitChars_zeroPadded, ofDigitChars_zeroPadded]
    exact h

/-- A fifth digit is not padded for. -/
theorem runName_tenThousand : runName 10000 < runName 9999 := by
  rw [String.lt_iff_toList_lt, toList_runName, toList_runName]
  decide

/-- The names of runs from number zero on. -/
def runNames (n : Nat) : List String := (List.range n).map fun i : Nat => runName i

theorem runNames_succ (n : Nat) : runNames (n + 1) = runNames n ++ [runName n] := by
  rw [runNames, List.range_succ, List.map_append]
  rfl

theorem length_runNames (n : Nat) : (runNames n).length = n := by
  rw [runNames, List.length_map, List.length_range]

theorem nodup_runNames (n : Nat) : (runNames n).Nodup :=
  List.nodup_range.map fun _ _ h => Int.ofNat.inj (runName_injective h)

theorem eq_of_getElem?_runNames {n i : Nat} {name : String} (h : (runNames n)[i]? = some name) :
    name = runName i := by
  obtain ⟨hi, rfl⟩ := List.getElem?_eq_some_iff.mp h
  simp only [runNames, List.getElem_map, List.getElem_range]

theorem ascending_runNames_iff {n : Nat} : (runNames n).Pairwise (· ≤ ·) ↔ n ≤ 10000 := by
  rw [runNames, List.pairwise_map]
  constructor
  · intro h
    by_contra hn
    -- The last name of four digits and the first of five are both there, in this order.
    have hpair := List.pairwise_iff_getElem.mp h 9999 10000 (by simp; omega) (by simp; omega)
      (by omega)
    rw [List.getElem_range, List.getElem_range] at hpair
    exact absurd runName_tenThousand (not_lt_of_ge hpair)
  · intro hn
    refine List.pairwise_lt_range.imp_of_mem fun _ hj hij => ?_
    exact le_of_lt (runName_lt hij (Nat.lt_of_lt_of_le (List.mem_range.mp hj) hn))

/-! ## The names of a session -/

theorem map_numbered (runs : List Entry) : (numbered runs).map Prod.fst = runNames runs.length := by
  induction runs using List.reverseRecOn with
  | nil => rfl
  | append_singleton runs e ih =>
    rw [numbered_snoc, List.map_append, ih, List.length_append, List.length_singleton,
      runNames_succ]
    rfl

/-- A write that has failed behind the check leaves its name behind the others. -/
theorem Numbered.perm_names (h : s.Numbered runs stuck) :
    s.names.Perm (runNames (runs.length + if stuck then 1 else 0)) := by
  have hentries : s.entries.map Prod.fst =
      runNames (runs.length + if stuck then 1 else 0) := by
    rw [h.entries, List.map_append, map_numbered]
    cases stuck with
    | false => exact List.append_nil _
    | true => exact (runNames_succ _).symm
  rw [← hentries]
  exact s.perm_names

theorem Numbered.names_eq_iff (h : s.Numbered runs stuck) :
    s.names = runNames runs.length ↔ s.Free ∧ runs.length ≤ 10000 := by
  rw [h.free_iff]
  have hperm := h.perm_names
  constructor
  · intro hnames
    have hlength := hperm.length_eq
    rw [hnames, length_runNames, length_runNames] at hlength
    refine ⟨?_, ascending_runNames_iff.mp (hnames ▸ s.ascending_names)⟩
    cases stuck with
    | false => rfl
    | true => exact absurd hlength (Nat.ne_of_lt (Nat.lt_succ_self _))
  · rintro ⟨rfl, hle⟩
    -- Both are ascending, and an ascending list is known by its members.
    exact hperm.eq_of_pairwise (fun a b _ _ => le_antisymm) s.ascending_names
      (ascending_runNames_iff.mpr hle)

/-- The names that writes have returned, in order. -/
def returned (answers : List (Except WriteError (String × List String))) : List String :=
  answers.filterMap fun r => r.toOption.map Prod.fst

/-- By induction on what is done; the names so far are those of the runs so far. -/
theorem Numbered.written (h : s.Numbered runs stuck) (ds : List (Deed Json LooseTrace)) :
    ∃ runs' stuck', (ds.foldl perform s).Numbered runs' stuck' ∧
      runNames runs.length ++ returned (s.answers ds) = runNames runs'.length := by
  induction ds generalizing s runs stuck with
  | nil => exact ⟨runs, stuck, h, List.append_nil _⟩
  | cons d ds ih =>
    cases d with
    | save config => exact ih (h.saveWorld config)
    | write t =>
      show ∃ runs' stuck', (ds.foldl perform (s.write t).2).Numbered runs' stuck' ∧
        runNames runs.length ++ returned ((s.write t).1 :: (s.write t).2.answers ds) = _
      cases hr : (s.write t).1 with
      | ok r =>
        obtain ⟨-, hname, e, -, hwritten⟩ := h.write_ok hr
        obtain ⟨runs', stuck', hruns, hnames⟩ := ih hwritten
        refine ⟨runs', stuck', hruns, ?_⟩
        rw [List.length_append, List.length_singleton, runNames_succ, List.append_assoc,
          ← hname] at hnames
        exact hnames
      | error e =>
        rcases h.write_error hr with hs | ⟨rfl, hs⟩
        · rw [hs]
          exact ih h
        · rw [hs]
          exact ih h.abandon

theorem written_after (options : StoreOptions) (ds : List (Deed Json LooseTrace)) :
    ∃ runs stuck, (after options ds).Numbered runs stuck ∧
      returned ((empty options).answers ds) = runNames runs.length :=
  (numbered_empty options).written ds

/-- How the runs of a session are listed whose writes have returned these names. -/
structure Lists (s : Store) (ns : List String) : Prop where
  nodup : s.names.Nodup
  ascending : s.names.Pairwise (· ≤ ·)
  free : s.Free → s.names.Perm ns
  taken : ¬ s.Free → s.names.Perm (ns ++ [runName ns.length])
  in_order_iff : s.names = ns ↔ s.Free ∧ ns.length ≤ 10000
  /-- A name that was returned and its number load the same. -/
  loaded : ∀ (i : Nat) name, ns[i]? = some name → s.fetch (.nat i) = s.fetch (.str name)

/-- Whatever is done in a session, its runs are listed by name, and that is the order in which they
were written as long as four digits are enough to count them. -/
theorem listed_in_order_iff (options : StoreOptions) (ds : List (Deed Json LooseTrace)) :
    (after options ds).Lists (returned ((empty options).answers ds)) := by
  obtain ⟨runs, stuck, h, hreturned⟩ := written_after options ds
  have hperm := h.perm_names
  rw [hreturned]
  constructor
  · exact hperm.nodup_iff.mpr (nodup_runNames _)
  · exact ascending_names _
  · intro hfree
    obtain rfl := h.free_iff.mp hfree
    exact hperm
  · intro htaken
    rw [h.free_iff, Bool.not_eq_false] at htaken
    subst htaken
    rw [length_runNames, ← runNames_succ]
    exact hperm
  · rw [length_runNames]
    exact h.names_eq_iff
  · intro i name hi
    rw [eq_of_getElem?_runNames hi]
    rfl

/-- A run that was stopped before it did anything. -/
def idleRun : Trace Actor := ⟨.str "idle", none, [], .null, .str "cancelled", .null⟩

/-- Ten thousand and one such runs. -/
def manyRuns : List (Deed Json LooseTrace) := List.replicate 10001 (.write idleRun.loose)

theorem storable_idleRun : idleRun.Storable :=
  ⟨⟨_, rfl⟩, nofun, nofun, .inl rfl, ⟨_, by decide, rfl⟩⟩

theorem answers_manyRuns : ∀ r ∈ usual.answers manyRuns, ∃ a, r = .ok a := by
  let ds : List (Deed Attribute (Trace Actor)) := List.replicate 10001 (.write idleRun)
  have hwrites : ∀ d ∈ ds, d = .write idleRun := fun d hd => List.eq_of_mem_replicate hd
  have htraces : ∀ t ∈ Deed.traces ds, t = idleRun := by
    intro t ht
    obtain ⟨d, hd, hdt⟩ := List.mem_filterMap.mp ht
    rw [hwrites d hd] at hdt
    exact (Option.some.inj hdt).symm
  have hencode : ds.mapM Deed.encode = .ok manyRuns := by
    have hmap : ds.mapM Deed.encode = .ok (ds.map fun _ => .write idleRun.loose) :=
      mapM_eq_ok_map fun d hd => by rw [hwrites d hd]; rfl
    rw [hmap, List.map_replicate]
    rfl
  refine answers_eq_ok (numbered_empty usual.options) hencode ?_ ?_ fun _ _ h => nomatch h
  · intro t ht
    rw [htraces t ht]
    exact storable_idleRun
  · constructor
    · intro t ht
      rw [htraces t ht]
      decide
    · intro t ht
      rw [htraces t ht]
      decide
    · rintro ⟨t, ht, hstates⟩
      rw [htraces t ht] at hstates
      exact absurd rfl hstates
    · intro _ config hconfig
      obtain ⟨d, hd, hdc⟩ := List.mem_filterMap.mp hconfig
      rw [hwrites d hd] at hdc
      cases hdc

theorem length_answers_replicate (s : Store) (t : LooseTrace) (n : Nat) :
    (s.answers (List.replicate n (.write t))).length = n := by
  induction n generalizing s with
  | zero => rfl
  | succ n ih =>
    rw [List.replicate_succ, answers, List.length_cons, ih]

theorem length_returned {answers : List (Except WriteError (String × List String))}
    (h : ∀ r ∈ answers, ∃ a, r = .ok a) : (returned answers).length = answers.length := by
  rw [returned, List.length_filterMap_eq_countP, List.countP_eq_length]
  intro r hr
  obtain ⟨a, rfl⟩ := h r hr
  rfl

/-- The names of many runs are not listed as they were returned, though every write succeeds. -/
theorem manyRuns_out_of_order :
    (∀ r ∈ usual.answers manyRuns, ∃ a, r = .ok a) ∧
      (returned (usual.answers manyRuns)).length = 10001 ∧
      (after usual.options manyRuns).names ≠ returned (usual.answers manyRuns) := by
  obtain ⟨runs, stuck, h, hreturned⟩ := written_after usual.options manyRuns
  have hlength : (returned (usual.answers manyRuns)).length = 10001 :=
    (length_returned answers_manyRuns).trans (length_answers_replicate _ _ _)
  refine ⟨answers_manyRuns, hlength, fun hnames => ?_⟩
  have hreturned' : returned (usual.answers manyRuns) = runNames runs.length := hreturned
  rw [hreturned', length_runNames] at hlength
  rw [hreturned', h.names_eq_iff, hlength] at hnames
  exact absurd hnames.2 (by decide)

end Store

end BlockGrid
