import BlockGrid.Proofs.Trace.Name
import BlockGrid.Trace.Session
import Mathlib.Data.List.Induction

/-!
# BlockGrid.Proofs.Trace.Session

A store from its opening on, whatever is done to it.

* `Store.Free`      — the next name is not taken.
* `write_cases`     — a write fails in the check, or on a name that is taken, or with its own name
  taken and nothing under it; or the run is there.
* `Store.Numbered`  — the runs that were written to the end, by number. The next name is free, or a
  write has taken it and failed; then no later write gets past it.
* `Numbered.write_ok`, `Numbered.write_error` — what a write adds, and what one leaves that fails.
* `Store.fetch`     — the trace under a number or a name.
-/

namespace BlockGrid

namespace Store

/-- No write has taken the name of the next run. -/
def Free (s : Store) : Prop := s.entries.lookup (runName s.count) = none

/-- The next name is taken, with nothing under it. -/
def abandon (s : Store) : Store := { s with entries := s.entries ++ [(runName s.count, none)] }

/-- A run is there under the next name. -/
def add (s : Store) (e : Entry) : Store :=
  { s with entries := s.entries ++ [(runName s.count, some e)], count := s.count + 1 }

def fetch (s : Store) (v : Json) : Except ReadBackError (Trace Actor) := do
  let name ← nameOf v
  s.read name

theorem fetch_int (s : Store) (n : Int) : s.fetch (.int n) = s.read (runName n) := rfl

theorem fetch_str (s : Store) (name : String) : s.fetch (.str name) = s.read name := rfl

theorem after_append (options : StoreOptions) (ds es : List (Deed Json LooseTrace)) :
    after options (ds ++ es) = es.foldl perform (after options ds) :=
  List.foldl_append ..

variable {s : Store} {t : LooseTrace}

theorem write_cases (s : Store) (t : LooseTrace) :
    (∃ e, s.warnings t = .error e ∧ s.write t = (.error e, s)) ∨
    (∃ found, s.warnings t = .ok found ∧
      (¬ s.Free ∧ s.write t = (.error .nameTaken, s) ∨
        s.Free ∧
          ((∃ e, s.entryOf t = .error e ∧ s.write t = (.error e, s.abandon)) ∨
            ∃ entry, s.entryOf t = .ok entry ∧
              s.write t = (.ok (runName s.count, found), s.add entry)))) := by
  unfold write
  cases hw : s.warnings t with
  | error e => exact .inl ⟨e, rfl, rfl⟩
  | ok found =>
    refine .inr ⟨found, rfl, ?_⟩
    cases hl : s.entries.lookup (runName s.count) with
    | some e => exact .inl ⟨by simp [Free, hl], by simp [hl]⟩
    | none =>
      refine .inr ⟨hl, ?_⟩
      cases he : s.entryOf t with
      | error e => exact .inl ⟨e, rfl, by simp [hl, abandon]⟩
      | ok entry => exact .inr ⟨entry, rfl, by simp [hl, add]⟩

theorem write_of_ok {found : List String} {e : Entry} (hw : s.warnings t = .ok found)
    (hfree : s.Free) (he : s.entryOf t = .ok e) :
    s.write t = (.ok (runName s.count, found), s.add e) := by
  have hname : s.entries.lookup (runName s.count) = none := hfree
  simp [write, hw, hname, he, add]

theorem write_of_error {found : List String} {e : WriteError} (hw : s.warnings t = .ok found)
    (hfree : s.Free) (he : s.entryOf t = .error e) : s.write t = (.error e, s.abandon) := by
  have hname : s.entries.lookup (runName s.count) = none := hfree
  simp [write, hw, hname, he, abandon]

theorem write_of_taken (hw : ¬ s.Free) : ∃ e, s.write t = (.error e, s) := by
  rcases s.write_cases t with ⟨e, -, h⟩ | ⟨found, -, ⟨-, h⟩ | ⟨hfree, -⟩⟩
  · exact ⟨e, h⟩
  · exact ⟨.nameTaken, h⟩
  · exact absurd hfree hw

/-! ## Runs by number -/

/-- Runs under their names, from number zero on. -/
def numbered (runs : List Entry) : List (String × Option Entry) :=
  runs.mapIdx fun i e => (runName i, some e)

theorem numbered_snoc (runs : List Entry) (e : Entry) :
    numbered (runs ++ [e]) = numbered runs ++ [(runName runs.length, some e)] := by
  rw [numbered, List.mapIdx_concat]
  rfl

theorem lookup_pair {α : Type} (m n : Int) (x : α) :
    [(runName m, x)].lookup (runName n) = if n = m then some x else none := by
  by_cases hn : n = m
  · subst hn
    simp
  · have hname : (runName n == runName m) = false :=
      beq_eq_false_iff_ne.mpr fun h => hn (runName_injective h)
    simp [List.lookup_cons, hn, hname]

theorem lookup_numbered (runs : List Entry) (n : Int) :
    (numbered runs).lookup (runName n) = if 0 ≤ n then (runs[n.toNat]?).map some else none := by
  induction runs using List.reverseRecOn with
  | nil => simp [numbered]
  | append_singleton runs e ih =>
    rw [numbered_snoc, List.lookup_append, ih, lookup_pair]
    rcases Int.lt_trichotomy n runs.length with hn | rfl | hn
    · -- Runs that were there stay where they are.
      have hne : n ≠ runs.length := by omega
      rw [if_neg hne, Option.or_none]
      by_cases h0 : 0 ≤ n
      · rw [List.getElem?_append_left (by omega)]
      · simp [h0]
    · simp
    · have h0 : 0 ≤ n := by omega
      have hne : n ≠ runs.length := by omega
      rw [if_neg hne, if_pos h0, if_pos h0, List.getElem?_eq_none (by omega),
        List.getElem?_eq_none (by simp; omega)]
      rfl

/-- `stuck` when a write has taken the next name and failed. -/
structure Numbered (s : Store) (runs : List Entry) (stuck : Bool) : Prop where
  count : s.count = runs.length
  entries : s.entries = numbered runs ++
    if stuck then [(runName runs.length, none)] else []

section Numbered

variable {runs : List Entry} {stuck : Bool}

theorem Numbered.lookup (h : s.Numbered runs stuck) (n : Int) :
    s.entries.lookup (runName n) =
      if 0 ≤ n ∧ n < runs.length then (runs[n.toNat]?).map some
      else if n = runs.length ∧ stuck = true then some none else none := by
  have hrest : (if stuck then [(runName runs.length, (none : Option Entry))] else []).lookup
      (runName n) = if n = runs.length ∧ stuck = true then some none else none := by
    cases stuck with
    | false => simp
    | true =>
      rw [if_pos rfl, lookup_pair]
      simp
  rw [h.entries, List.lookup_append, lookup_numbered, hrest]
  by_cases hn : 0 ≤ n ∧ n < runs.length
  · simp [hn]
  · rw [if_neg hn]
    by_cases h0 : 0 ≤ n
    · rw [if_pos h0, List.getElem?_eq_none (by omega)]
      rfl
    · rw [if_neg h0]
      rfl

theorem Numbered.free_iff (h : s.Numbered runs stuck) : s.Free ↔ stuck = false := by
  rw [Free, h.lookup, h.count]
  simp

theorem numbered_empty (options : StoreOptions) : (empty options).Numbered [] false where
  count := rfl
  entries := rfl

theorem Numbered.saveWorld (h : s.Numbered runs stuck) (config : Json) :
    (s.saveWorld config).Numbered runs stuck := ⟨h.count, h.entries⟩

theorem Numbered.abandon (h : s.Numbered runs false) : s.abandon.Numbered runs true where
  count := h.count
  entries := by
    show s.entries ++ [(runName s.count, none)] = _
    rw [h.entries, h.count]
    simp

theorem Numbered.add (h : s.Numbered runs false) (e : Entry) :
    (s.add e).Numbered (runs ++ [e]) false where
  count := by
    show s.count + 1 = _
    rw [h.count, List.length_append]
    rfl
  entries := by
    show s.entries ++ [(runName s.count, some e)] = _
    rw [h.entries, h.count, numbered_snoc]
    simp

/-- A write that succeeds has added its run. -/
theorem Numbered.write_ok (h : s.Numbered runs stuck) {r : String × List String}
    (hr : (s.write t).1 = .ok r) :
    stuck = false ∧ r.1 = runName runs.length ∧
      ∃ e, s.entryOf t = .ok e ∧ (s.write t).2.Numbered (runs ++ [e]) false := by
  rcases s.write_cases t with ⟨e, -, hw⟩ | ⟨found, -, ⟨-, hw⟩ | ⟨hfree, ⟨e, -, hw⟩ | ⟨e, he, hw⟩⟩⟩
  · rw [hw] at hr; cases hr
  · rw [hw] at hr; cases hr
  · rw [hw] at hr; cases hr
  · rw [hw] at hr
    cases hr
    obtain rfl : stuck = false := h.free_iff.mp hfree
    refine ⟨rfl, by rw [h.count], e, he, ?_⟩
    rw [hw]
    exact h.add e

/-- A write that fails has added none. -/
theorem Numbered.write_error (h : s.Numbered runs stuck) {e : WriteError}
    (he : (s.write t).1 = .error e) :
    (s.write t).2 = s ∨ stuck = false ∧ (s.write t).2 = s.abandon := by
  rcases s.write_cases t with ⟨e', -, hw⟩ | ⟨found, -, ⟨-, hw⟩ | ⟨hfree, ⟨e', -, hw⟩ | ⟨e', -, hw⟩⟩⟩
  · exact .inl (by rw [hw])
  · exact .inl (by rw [hw])
  · exact .inr ⟨h.free_iff.mp hfree, by rw [hw]⟩
  · rw [hw] at he; cases he

/-! ## Finding runs -/

theorem Numbered.find_run (h : s.Numbered runs stuck) {i : Nat} {e : Entry}
    (hi : runs[i]? = some e) : s.find (runName i) = .ok e := by
  have hlt : i < runs.length := (List.getElem?_eq_some_iff.mp hi).1
  have hentry : s.entries.lookup (runName i) = some (some e) := by
    rw [h.lookup, if_pos (by omega), Int.toNat_natCast, hi]
    rfl
  rw [find_runName, hentry]

theorem Numbered.find_other (h : s.Numbered runs false) {n : Int}
    (hn : ¬ (0 ≤ n ∧ n < runs.length)) : s.find (runName n) = .error (.notFound (runName n)) := by
  have hentry : s.entries.lookup (runName n) = none := by
    rw [h.lookup, if_neg hn]
    simp
  rw [find_runName, hentry]

end Numbered

end Store

end BlockGrid
