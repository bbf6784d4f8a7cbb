import BlockGrid.Proofs.Number.Value
import BlockGrid.Trace.Attribute
import Mathlib.Data.Finset.Sort
import Mathlib.Data.List.Lex
import Mathlib.Data.String.Basic

/-!
# BlockGrid.Proofs.Trace.Ascending

Ascending lists of values of one kind.

* `Json.Ordered`  — values are compared as what they stand for. So are integers, texts and lists of
  integers: `ordered_int`, `ordered_str`, `ordered_ofInts`.
* `ascending_map` — such values in ascending order, each once.
-/

namespace BlockGrid

namespace Json

/-- Values that are written in this form are compared as what they are written for. -/
structure Ordered {κ : Type} [LinearOrder κ] (form : κ → Json) : Prop where
  before_eq : ∀ a b, before (form a) (form b) = .ok (decide (a < b))
  same_eq : ∀ a b, same (form a) (form b) = decide (a = b)

theorem before_int (a b : Int) : before (.int a) (.int b) = .ok (decide (a < b)) :=
  congrArg Except.ok (Extended.lt_ofInt a b)

theorem same_int (a b : Int) : same (.int a) (.int b) = decide (a = b) :=
  Extended.same_ofInt a b

theorem ordered_int : Ordered Json.int := ⟨before_int, same_int⟩

theorem ordered_str : Ordered Json.str := ⟨fun _ _ => rfl, fun _ _ => rfl⟩

def ofInts (ns : List Int) : Json := .arr (ns.map .int)

theorem same_ofInts (ms ns : List Int) : same (ofInts ms) (ofInts ns) = decide (ms = ns) := by
  show sameItems (ms.map .int) (ns.map .int) = _
  induction ms generalizing ns with
  | nil => cases ns <;> rfl
  | cons m ms ih =>
    cases ns with
    | nil => rfl
    | cons n ns => simp [sameItems, same_int, ih]

/-- By the first difference; a list comes before what it is the beginning of. -/
theorem before_ofInts (ms ns : List Int) :
    before (ofInts ms) (ofInts ns) = .ok (decide (ms < ns)) := by
  show beforeItems (ms.map .int) (ns.map .int) = _
  induction ms generalizing ns with
  | nil => cases ns <;> simp [beforeItems]
  | cons m ms ih =>
    cases ns with
    | nil => simp [beforeItems]
    | cons n ns =>
      by_cases hmn : m = n
      · simp [beforeItems, same_int, ih, hmn]
      · simp [beforeItems, same_int, before_int, hmn, List.cons_lt_cons_iff]

theorem ordered_ofInts : Ordered ofInts where
  before_eq ms ns := by
    rw [before_ofInts]
    congr
  same_eq ms ns := by
    rw [same_ofInts]
    congr

variable {κ : Type} [LinearOrder κ] {form : κ → Json}

theorem insertOnce_map (h : Ordered form) (k : κ) {ks : List κ} (hks : ks.Pairwise (· < ·)) :
    ∃ ls : List κ, insertOnce (form k) (ks.map form) = .ok (ls.map form) ∧ ls.Pairwise (· < ·) ∧
      ∀ x, x ∈ ls ↔ x = k ∨ x ∈ ks := by
  induction ks with
  | nil => exact ⟨[k], rfl, List.pairwise_singleton _ k, fun x => by simp⟩
  | cons a ks ih =>
    obtain ⟨hfirst, hrest⟩ := List.pairwise_cons.mp hks
    simp only [List.map_cons, insertOnce, h.same_eq, h.before_eq, decide_eq_true_eq]
    rcases lt_trichotomy k a with hlt | rfl | hlt
    · refine ⟨k :: a :: ks, ?_, List.pairwise_cons.mpr ⟨?_, hks⟩, fun x => by simp⟩
      · rw [if_neg hlt.ne, decide_eq_true hlt]
        rfl
      · rintro x (_ | ⟨_, hx⟩)
        · exact hlt
        · exact hlt.trans (hfirst x hx)
    · exact ⟨k :: ks, by rw [if_pos rfl]; rfl, hks, fun x => by simp⟩
    · obtain ⟨ls, hls, hascending, hmem⟩ := ih hrest
      refine ⟨a :: ls, ?_, List.pairwise_cons.mpr ⟨fun x hx => ?_, hascending⟩, fun x => ?_⟩
      · rw [if_neg hlt.ne', decide_eq_false hlt.not_gt, hls]
        rfl
      · rcases (hmem x).mp hx with rfl | hx
        · exact hlt
        · exact hfirst x hx
      · simp only [List.mem_cons, hmem]
        tauto

/-- By induction on what is still to be put in. -/
theorem foldlM_insertOnce (h : Ordered form) (ks : List κ) {done : List κ}
    (hdone : done.Pairwise (· < ·)) :
    ∃ ls : List κ, (ks.map form).foldlM (fun sorted v => insertOnce v sorted) (done.map form) =
        .ok (ls.map form) ∧ ls.Pairwise (· < ·) ∧ ∀ x, x ∈ ls ↔ x ∈ ks ∨ x ∈ done := by
  induction ks generalizing done with
  | nil => exact ⟨done, rfl, hdone, fun x => by simp⟩
  | cons k ks ih =>
    obtain ⟨next, hnext, hascending, hmem⟩ := insertOnce_map h k hdone
    obtain ⟨ls, hls, hall, hmem'⟩ := ih hascending
    refine ⟨ls, ?_, hall, fun x => ?_⟩
    · rw [List.map_cons, List.foldlM_cons, hnext]
      exact hls
    · rw [hmem', hmem, List.mem_cons]
      tauto

theorem ascending_map (h : Ordered form) (ks : List κ) :
    ascending (ks.map form) = .ok ((ks.toFinset.sort (· ≤ ·)).map form) := by
  have hempty : ([] : List κ).Pairwise (· < ·) := .nil
  obtain ⟨ls, hls, hascending, hmem⟩ := foldlM_insertOnce h ks hempty
  have hfinset : ks.toFinset = ls.toFinset := by
    ext x
    simp [hmem]
  have hsort : ls.toFinset.sort (· ≤ ·) = ls :=
    (List.toFinset_sort (· ≤ ·) (hascending.imp ne_of_lt)).mpr (hascending.imp le_of_lt)
  rw [hfinset, hsort]
  exact hls

end Json

end BlockGrid
