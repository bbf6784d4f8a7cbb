import BlockGrid.Proofs.Trace.Entries

/-!
# BlockGrid.Proofs.Trace.Warnings

A trace whose states have integers in them is checked without an error, if the sides of the world
are numbers or not given.

* `Json.isSized`   — a description with such sides.
* `checkAll_eq_ok` — the states; the steps so far are an integer all along.
* `warnings_eq_ok` — the whole trace.
-/

namespace BlockGrid

/-- A number, or no bound. -/
def Json.isBound (v : Json) : Bool := v.isNull || v.number?.isSome

/-- A description whose sides, if it has any, are numbers. -/
def Json.isSized : Json → Bool
  | .obj entries =>
    ((Entries.get? "rows" entries).getD .null).isBound &&
      ((Entries.get? "cols" entries).getD .null).isBound
  | v => !v.isTruthy

namespace Bounds

/-- Whatever is asked of two numbers has an answer. -/
theorem compare_eq_ok {a b : Json} (ha : a.number?.isSome = true) (hb : b.number?.isSome = true)
    (operator : String) (holds : Extended → Extended → Bool) :
    ∃ r, compare operator holds a b = .ok r := by
  obtain ⟨x, hx⟩ := Option.isSome_iff_exists.mp ha
  obtain ⟨y, hy⟩ := Option.isSome_iff_exists.mp hb
  exact ⟨holds x y, by simp only [compare, hx, hy]⟩

theorem within_eq_ok {bound : Json} (h : bound.number?.isSome = true) (n : Int) :
    ∃ r, within (.int n) bound = .ok r := by
  have hn : (Json.int n).number?.isSome = true := rfl
  obtain ⟨low, hlow⟩ := compare_eq_ok (a := .int 0) rfl hn "<=" Extended.le
  obtain ⟨high, hhigh⟩ := compare_eq_ok hn h "<" Extended.lt
  rw [within, hlow]
  cases low with
  | true => exact ⟨high, hhigh⟩
  | false => exact ⟨false, rfl⟩

structure Numeric (b : Bounds) : Prop where
  rows : b.rows.isBound = true
  cols : b.cols.isBound = true

theorem number_of_isBound {v : Json} (h : v.isBound = true) (hv : v.isNull = false) :
    v.number?.isSome = true := by
  rw [Json.isBound, hv] at h
  exact h

theorem contains_eq_ok {b : Bounds} (h : b.Numeric) (hgiven : b.areGiven = true) (c : Cell) :
    ∃ r, b.contains (.ofCell c) = .ok r := by
  rw [areGiven, Bool.and_eq_true, Bool.not_eq_true', Bool.not_eq_true'] at hgiven
  obtain ⟨x, hx⟩ := within_eq_ok (number_of_isBound h.rows hgiven.1) c.1
  obtain ⟨y, hy⟩ := within_eq_ok (number_of_isBound h.cols hgiven.2) c.2
  rw [contains, show (LooseCell.ofCell c).1 = .int c.1 from rfl, hx]
  cases x with
  | true => exact ⟨y, hy⟩
  | false => exact ⟨false, rfl⟩

theorem numeric_none : none.Numeric := ⟨rfl, rfl⟩

end Bounds

namespace Snapshot

theorem boundsWarnings_eq_ok {b : Bounds} (h : b.Numeric) (i : Nat) (a : Actor) :
    ∃ found, boundsWarnings i b (.ofActor a) = .ok found := by
  unfold boundsWarnings
  by_cases hgiven : b.areGiven = true
  · obtain ⟨r, hr⟩ := Bounds.contains_eq_ok h hgiven a.position
    have hcell : (LooseActor.ofActor a).position = .ofCell a.position := rfl
    rw [if_pos hgiven, hcell, hr]
    cases r with
    | true => exact ⟨[], rfl⟩
    | false => exact ⟨_, rfl⟩
  · exact ⟨[], if_neg hgiven⟩

/-- Integers can be looked up by. -/
theorem withoutHash?_ofCell (cells : List Cell) :
    LooseCell.withoutHash? (cells.map .ofCell) = none := by
  rw [LooseCell.withoutHash?, List.find?_eq_none]
  intro v hv
  simp only [List.mem_flatMap, List.mem_map] at hv
  obtain ⟨_, ⟨c, -, rfl⟩, hv⟩ := hv
  have hcases : v = .int c.1 ∨ v = .int c.2 := by simpa [LooseCell.ofCell] using hv
  rcases hcases with rfl | rfl <;> simp [Json.hasHash]

theorem repeatWarnings_eq_ok (i : Nat) (a : Actor) :
    ∃ found, repeatWarnings i (.ofActor a) = .ok found := by
  rw [repeatWarnings, show (LooseActor.ofActor a).collected = a.collected.map .ofCell from rfl,
    withoutHash?_ofCell]
  exact ⟨_, rfl⟩

theorem check_eq_ok {b : Bounds} (h : b.Numeric) (i : Nat) (a : Actor) :
    ∃ found, (ofActor a).check i b = .ok found := by
  obtain ⟨outside, houtside⟩ := boundsWarnings_eq_ok h i a
  obtain ⟨repeats, hrepeats⟩ := repeatWarnings_eq_ok i a
  rw [ofActor, check, houtside, hrepeats]
  exact ⟨_, rfl⟩

theorem stepWarnings_eq_ok (i : Nat) (steps : Int) (a : Actor) :
    ∃ found, (ofActor a).stepWarnings i (.int steps) = .ok found := by
  obtain ⟨r, hr⟩ := Bounds.compare_eq_ok (a := .int a.stepCount) (b := .int steps) rfl rfl "<"
    Extended.lt
  have hless : isLess (.int a.stepCount) (.int steps) = .ok r := hr
  rw [stepWarnings, show (ofActor a).stepCount? = some (.int a.stepCount) from rfl]
  simp only [hless]
  cases r with
  | true => exact ⟨_, rfl⟩
  | false => exact ⟨_, rfl⟩

theorem checkAll_eq_ok {b : Bounds} (h : b.Numeric) (states : List Actor) (i : Nat) (steps : Int) :
    ∃ found, checkAll b i (.int steps) (states.map .ofActor) = .ok found := by
  induction states generalizing i steps with
  | nil => exact ⟨[], rfl⟩
  | cons a rest ih =>
    obtain ⟨own, hown⟩ := check_eq_ok h i a
    obtain ⟨back, hback⟩ := stepWarnings_eq_ok i steps a
    obtain ⟨others, hothers⟩ := ih (i + 1) a.stepCount
    have hsteps : (ofActor a).stepCount?.getD (.int steps) = .int a.stepCount := rfl
    rw [List.map_cons, checkAll, hown, hback, hsteps, hothers]
    exact ⟨_, rfl⟩

end Snapshot

namespace Trace

variable {t : Trace Actor}

theorem check_eq_ok {b : Bounds} (h : b.Numeric) (ht : t.Storable) :
    ∃ found, t.loose.check b = .ok found := by
  obtain ⟨outcome, houtcome⟩ : ∃ found, t.loose.outcomeWarnings = .ok found := by
    obtain ⟨text, -, htext⟩ := ht.outcome
    rw [outcomeWarnings, show t.loose.outcome = .str text from htext]
    split
    · exact ⟨_, rfl⟩
    · exact ⟨_, rfl⟩
  obtain ⟨steps, hsteps⟩ : ∃ n, t.loose.initial.elim (.int 0) LooseActor.stepCount = .int n := by
    show ∃ n, (t.initial.map LooseActor.ofActor).elim (.int 0) LooseActor.stepCount = .int n
    cases t.initial with
    | none => exact ⟨0, rfl⟩
    | some a => exact ⟨a.stepCount, rfl⟩
  obtain ⟨found, hfound⟩ := Snapshot.checkAll_eq_ok h t.states 0 steps
  rw [check, houtcome, hsteps, show t.loose.states = t.states.map .ofActor from rfl]
  simp only [bind, Except.bind, hfound]
  exact ⟨_, rfl⟩

end Trace

namespace Store

theorem bounds_eq_ok {s : Store} (h : ∀ config, s.world = some config → config.isSized = true) :
    ∃ b, s.bounds = .ok b ∧ b.Numeric := by
  unfold bounds
  cases hw : s.world with
  | none => exact ⟨.none, rfl, Bounds.numeric_none⟩
  | some config =>
    have hsized := h config hw
    by_cases ht : config.isTruthy = true
    · simp only [ht, if_true]
      cases config with
      | obj entries =>
        rw [Json.isSized, Bool.and_eq_true] at hsized
        exact ⟨_, rfl, hsized.1, hsized.2⟩
      | _ => simp [Json.isSized, ht] at hsized
    · exact ⟨.none, by simp only [ht, Bool.false_eq_true, if_false], Bounds.numeric_none⟩

theorem warnings_eq_ok {s : Store} {t : Trace Actor} (ht : t.Storable)
    (h : s.options.validates = true → ∀ config, s.world = some config → config.isSized = true) :
    ∃ found, s.warnings t.loose = .ok found := by
  unfold warnings
  by_cases hv : s.options.validates = true
  · obtain ⟨b, hb, hnumeric⟩ := bounds_eq_ok (h hv)
    obtain ⟨found, hfound⟩ := Trace.check_eq_ok hnumeric ht
    rw [if_pos hv, hb]
    simp only [bind, Except.bind, hfound]
    exact ⟨_, rfl⟩
  · exact ⟨[], if_neg hv⟩

end Store

end BlockGrid
