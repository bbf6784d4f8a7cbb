import BlockGrid.Trace.Store
import Mathlib.Logic.Function.Basic

/-!
# BlockGrid.Proofs.Trace.Name

The names of runs.

* `numberOf`          — the number behind a name. It undoes the padding, so different numbers have
  different names (`runName_injective`).
* `stepsOf?_of_plain` — a name without a slash is one step of a path; those of runs are such names.
-/

namespace BlockGrid

namespace Path

theorem split_of_not_mem {separator : Char} {s : List Char} (h : separator ∉ s) :
    split separator s = [s] := by
  induction s with
  | nil => rfl
  | cons c s ih =>
    rw [List.mem_cons, not_or] at h
    rw [split, ih h.2]
    exact if_neg (Ne.symm h.1)

theorem rootOf_of_not_mem {s : List Char} (h : '/' ∉ s) : rootOf s = [] := by
  have hnone : s.takeWhile (· = '/') = [] := by
    cases s with
    | nil => rfl
    | cons c s =>
      have hc : c ≠ '/' := fun he => h (he ▸ List.mem_cons_self)
      exact List.takeWhile_cons_of_neg (by simpa using hc)
  rw [rootOf, hnone]
  rfl

theorem ofText_of_plain {s : String} (hslash : '/' ∉ s.toList) (hstep : isStep s.toList = true) :
    ofText s = ⟨[], [s.toList]⟩ := by
  rw [ofText, split_of_not_mem hslash, rootOf_of_not_mem hslash, List.filter_cons_of_pos hstep]
  rfl

end Path

namespace Store

/-- The number that is written with padding zeros, and with its sign in front. -/
def numberOf : List Char → Int
  | '-' :: digits => -(Nat.ofDigitChars 10 digits 0 : Int)
  | digits => Nat.ofDigitChars 10 digits 0

theorem ofDigitChars_leftpad (width n : Nat) :
    Nat.ofDigitChars 10 ((Nat.toDigits 10 n).leftpad width '0') 0 = n := by
  rw [List.leftpad, Nat.ofDigitChars_append, Nat.ofDigitChars_replicate_zero, Nat.mul_zero]
  exact Nat.ofDigitChars_ten_toDigits

theorem isDigit_of_mem_leftpad {width n : Nat} {c : Char}
    (h : c ∈ (Nat.toDigits 10 n).leftpad width '0') : c.isDigit = true := by
  rcases List.mem_append.mp h with hc | hc
  · rw [List.eq_of_mem_replicate hc]
    rfl
  · exact Nat.isDigit_of_mem_toDigits (by omega) (by omega) hc

theorem numberOf_zeroPadded (width : Nat) (n : Int) : numberOf (zeroPadded width n) = n := by
  unfold zeroPadded
  by_cases hn : n < 0
  · rw [if_pos hn]
    show -(Nat.ofDigitChars 10 _ 0 : Int) = n
    rw [ofDigitChars_leftpad]
    omega
  · rw [if_neg hn]
    have hvalue := ofDigitChars_leftpad width n.natAbs
    unfold numberOf
    split
    · rename_i digits hd
      -- A sign would have to be a digit.
      have hsign := isDigit_of_mem_leftpad (hd ▸ List.mem_cons_self : '-' ∈ _)
      cases hsign
    · rw [hvalue]
      omega

theorem toList_runName (n : Int) : (runName n).toList = "run_".toList ++ zeroPadded 4 n := by
  simp [runName]

theorem runName_injective : Function.Injective runName := by
  intro m n h
  have hlists := congrArg String.toList h
  rw [toList_runName, toList_runName, List.append_cancel_left_eq] at hlists
  rw [← numberOf_zeroPadded 4 m, hlists, numberOf_zeroPadded]

theorem slash_not_mem_runName (n : Int) : '/' ∉ (runName n).toList := by
  intro h
  rw [toList_runName, List.mem_append] at h
  rcases h with h | h
  · exact absurd h (by decide)
  · unfold zeroPadded at h
    split at h
    · rcases List.mem_cons.mp h with h | h
      · exact absurd h (by decide)
      · cases isDigit_of_mem_leftpad h
    · cases isDigit_of_mem_leftpad h

theorem stepsOf?_of_plain {name : String} (hslash : '/' ∉ name.toList)
    (hstep : Path.isStep name.toList = true) : stepsOf? name = some [name.toList] := by
  have hne : name ≠ "" := by
    rintro rfl
    cases hstep
  rw [stepsOf?, Path.ofText_of_plain hslash hstep, if_neg hne]
  rfl

theorem stepsOf?_runName (n : Int) : stepsOf? (runName n) = some [(runName n).toList] := by
  refine stepsOf?_of_plain (slash_not_mem_runName n) ?_
  rw [toList_runName]
  rfl

/-- The entry of a run is the one under its name. -/
theorem find_runName (s : Store) (n : Int) :
    s.find (runName n) =
      match s.entries.lookup (runName n) with
      | none => .error (.notFound (runName n))
      | some none => .error .incomplete
      | some (some entry) => .ok entry := by
  rw [find, stepsOf?_runName]
  cases h : s.entries.lookup (runName n) with
  | none => simp only [String.ofList_toList, h]
  | some entry => cases entry <;> simp only [String.ofList_toList, h]

end Store

end BlockGrid
