import BlockGrid.Number.Binary64
import Mathlib.Algebra.Field.Rat
import Mathlib.Tactic.NormNum

/-!
# BlockGrid.Proofs.Number.Value

Doubles as rational numbers.

* `Scaled.lt_ofInt`, `le_ofInt`, `same_ofInt` — integers as exact numbers.
* `Scaled.value` — the exact value; `value_eq_iff` is for an integer, in integers.
* `lt_iff`, `le_iff` — numbers are compared by their values.
* `Extended.IsNegative`, `Extended.Inside` — below zero, and from zero on to below a bound, with what
  is not finite among the numbers; `lt_zero_iff` and `inside_iff`, they are what comparisons find.
* `Binary64.toInt?_eq_some_iff` — a double stands for the integer that it is equal to, and for no
  other.
-/

namespace BlockGrid

namespace Scaled

variable {x y : Scaled} {n : Int}

theorem align_ofInt (m n : Int) : (ofInt m).align (ofInt n) = (m, n) := by
  have hone : Int.pow 2 0 = 1 := rfl
  show (m * Int.pow 2 0, n * Int.pow 2 0) = _
  rw [hone, Int.mul_one, Int.mul_one]

theorem lt_ofInt (m n : Int) : (ofInt m).lt (ofInt n) = decide (m < n) := by
  rw [lt, align_ofInt]

theorem le_ofInt (m n : Int) : (ofInt m).le (ofInt n) = decide (m ≤ n) := by
  rw [le, align_ofInt]

theorem same_ofInt (m n : Int) : (ofInt m).same (ofInt n) = (m == n) := by
  rw [same, align_ofInt]

def value (x : Scaled) : ℚ := x.mantissa * 2 ^ x.exponent

theorem value_ofInt (n : Int) : (ofInt n).value = n := by
  rw [value, ofInt, zpow_zero, mul_one]

/-- Over a smaller exponent the mantissa is larger by the power between. -/
theorem value_shift {e : Int} (h : e ≤ x.exponent) :
    x.value = (x.mantissa * Int.pow 2 (x.exponent - e).toNat : Int) * (2 : ℚ) ^ e := by
  obtain ⟨k, hk⟩ := Int.eq_ofNat_of_zero_le (Int.sub_nonneg_of_le h)
  have hexponent : x.exponent = k + e := by omega
  rw [value, hk, Int.toNat_natCast, hexponent, zpow_add₀ two_ne_zero, zpow_natCast, Int.cast_mul,
    mul_assoc]
  norm_num

theorem lt_iff : x.lt y = true ↔ x.value < y.value := by
  rw [value_shift (x := x) (min_le_left _ y.exponent),
    value_shift (x := y) (min_le_right x.exponent _), mul_lt_mul_iff_left₀ (zpow_pos two_pos _),
    Int.cast_lt]
  exact decide_eq_true_iff

theorem le_iff : x.le y = true ↔ x.value ≤ y.value := by
  rw [value_shift (x := x) (min_le_left _ y.exponent),
    value_shift (x := y) (min_le_right x.exponent _), mul_le_mul_iff_left₀ (zpow_pos two_pos _),
    Int.cast_le]
  exact decide_eq_true_iff

theorem value_eq_iff :
    x.value = n ↔ x.mantissa * 2 ^ x.exponent.toNat = n * 2 ^ (-x.exponent).toNat := by
  obtain ⟨m, e⟩ := x
  unfold value
  -- On either side of zero one of the two powers is one, and the other is moved across.
  rcases Int.le_total 0 e with he | he
  · obtain ⟨k, rfl⟩ := Int.eq_ofNat_of_zero_le he
    simp only [zpow_natCast, Int.toNat_natCast, Int.toNat_neg_natCast, pow_zero, mul_one]
    exact_mod_cast Iff.rfl
  · obtain ⟨k, rfl⟩ : ∃ k : Nat, e = -(k : Int) := ⟨(-e).toNat, by omega⟩
    simp only [zpow_neg, zpow_natCast, Int.toNat_neg_natCast, neg_neg, Int.toNat_natCast, pow_zero,
      mul_one]
    rw [mul_inv_eq_iff_eq_mul₀ (pow_ne_zero k (by norm_num : (2 : ℚ) ≠ 0))]
    exact_mod_cast Iff.rfl

theorem same_ofInt_iff : x.same (ofInt n) = true ↔ x.value = n := by
  have hleft : (x.exponent - min x.exponent 0).toNat = x.exponent.toNat := by omega
  have hright : (0 - min x.exponent 0).toNat = (-x.exponent).toNat := by omega
  rw [value_eq_iff]
  show (x.mantissa * Int.pow 2 (x.exponent - min x.exponent 0).toNat ==
    n * Int.pow 2 (0 - min x.exponent 0).toNat) = true ↔ _
  rw [hleft, hright, beq_iff_eq]
  rfl

theorem trunc_of_value (h : x.value = n) : x.trunc = n := by
  rw [value_eq_iff] at h
  unfold trunc
  split
  · rename_i he
    have hzero : (-x.exponent).toNat = 0 := by omega
    rwa [hzero, pow_zero, mul_one] at h
  · rename_i he
    have hzero : x.exponent.toNat = 0 := by omega
    rw [hzero, pow_zero, mul_one] at h
    rw [h]
    exact Int.mul_tdiv_cancel n (pow_ne_zero _ two_ne_zero)

theorem toInt?_eq_some_iff : x.toInt? = some n ↔ x.value = n := by
  unfold toInt?
  constructor
  · intro h
    split at h
    · rename_i hsame
      cases h
      exact same_ofInt_iff.mp hsame
    · cases h
  · intro h
    rw [trunc_of_value h, if_pos (same_ofInt_iff.mpr h)]

end Scaled

namespace Extended

variable {x : Extended} {m n side : Int}

theorem lt_ofInt (m n : Int) : (ofInt m).lt (ofInt n) = decide (m < n) := Scaled.lt_ofInt m n

theorem le_ofInt (m n : Int) : (ofInt m).le (ofInt n) = decide (m ≤ n) := Scaled.le_ofInt m n

theorem same_ofInt (m n : Int) : (ofInt m).same (ofInt n) = (m == n) := Scaled.same_ofInt m n

/-- What is not a number is not below zero either. -/
def IsNegative : Extended → Prop
  | .finite x => x.value < 0
  | .infinite negative => negative = true
  | .notANumber => False

theorem lt_zero_iff : x.lt (ofInt 0) = true ↔ x.IsNegative := by
  cases x with
  | finite x =>
    show x.lt (Scaled.ofInt 0) = true ↔ x.value < 0
    rw [Scaled.lt_iff, Scaled.value_ofInt, Int.cast_zero]
  | infinite negative => exact Iff.rfl
  | notANumber => exact iff_of_false Bool.false_ne_true id

/-- From zero on and below `side`, where only exact values are. -/
def Inside (x : Extended) (side : Int) : Prop := ∃ y, x = .finite y ∧ 0 ≤ y.value ∧ y.value < side

theorem inside_iff : ((ofInt 0).le x && x.lt (ofInt side)) = true ↔ x.Inside side := by
  cases x with
  | finite x =>
    show ((Scaled.ofInt 0).le x && x.lt (Scaled.ofInt side)) = true ↔ _
    simp only [Bool.and_eq_true, Scaled.le_iff, Scaled.lt_iff, Scaled.value_ofInt, Int.cast_zero,
      Inside, finite.injEq, exists_eq_left']
  | infinite negative => exact iff_of_false (by cases negative <;> exact Bool.false_ne_true) nofun
  | notANumber => exact iff_of_false Bool.false_ne_true nofun

instance (x : Extended) (side : Int) : Decidable (x.Inside side) := decidable_of_iff _ inside_iff

theorem inside_ofInt : (ofInt n).Inside side ↔ 0 ≤ n ∧ n < side := by
  simp only [Inside, ofInt, finite.injEq, exists_eq_left', Scaled.value_ofInt, Int.cast_nonneg_iff,
    Int.cast_lt]

end Extended

theorem Binary64.extended_of_isFinite {x : Binary64} (h : x.isFinite = true) :
    x.extended = .finite x.scaled :=
  if_pos h

theorem Binary64.toInt?_eq_some_iff {x : Binary64} {n : Int} :
    x.toInt? = some n ↔ x.isFinite = true ∧ x.scaled.value = n := by
  unfold toInt?
  split
  · rename_i hf
    rw [Scaled.toInt?_eq_some_iff]
    exact (and_iff_right hf).symm
  · rename_i hf
    exact iff_of_false nofun fun h => hf h.1

end BlockGrid
