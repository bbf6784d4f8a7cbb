import BlockGrid.Proofs.Number.Value
import BlockGrid.Proofs.Run.Paced
import BlockGrid.Run.Clock

/-!
# BlockGrid.Proofs.Run.Clock

Delays that are never over.

* `Json.Unending`         — what the clock of an event loop cannot wait for; `loop_ne_elapsed_iff`.
  Among doubles only those that are not finite (`Binary64.value_scaled_lt`).
* `Clock.through_elapsed_iff` — a run is slept through when every motion that it asks a delay for is.
-/

namespace BlockGrid

/-! ## One delay -/

/-- The largest finite double is one last place below the next power of two. -/
theorem Binary64.value_scaled_lt {x : Binary64} (h : x.isFinite = true) :
    x.scaled.value < Clock.limit := by
  have hfield : x.exponentField < 2047 := of_decide_eq_true h
  have hfraction : x.fractionField < 2 ^ 52 := Nat.mod_lt _ (by norm_num)
  have hsignificand : x.significand < 2 ^ 53 := by
    unfold significand
    split
    · omega
    · have hhidden : Nat.pow 2 52 = 2 ^ 52 := rfl
      omega
  have hplace : x.lastPlace ≤ 971 := by
    unfold lastPlace
    omega
  have hmantissa : x.scaled.mantissa ≤ (2 ^ 53 - 1 : Nat) := by
    show (if x.isNegative then -(x.significand : Int) else x.significand) ≤ _
    split <;> omega
  have hlimit : (2 ^ 53 - 1) * 2 ^ 971 < Clock.limit := by decide +kernel
  calc x.scaled.value = x.scaled.mantissa * 2 ^ x.lastPlace := rfl
    _ ≤ (2 ^ 53 - 1 : Nat) * 2 ^ x.lastPlace :=
      mul_le_mul_of_nonneg_right (by exact_mod_cast hmantissa) (zpow_nonneg two_pos.le _)
    _ ≤ (2 ^ 53 - 1 : Nat) * 2 ^ (971 : Int) :=
      mul_le_mul_of_nonneg_left (zpow_le_zpow_right₀ one_le_two hplace) (Nat.cast_nonneg _)
    _ = ((2 ^ 53 - 1) * 2 ^ 971 : Nat) := by
      rw [Nat.cast_mul, Nat.cast_pow, Nat.cast_two]
      rfl
    _ < Clock.limit := Nat.cast_lt.mpr hlimit

/-- A delay that is never over. -/
inductive Json.Unending (refusesNaN : Bool) : Json → Prop
  | noNumber {v : Json} : v.number? = none → Unending refusesNaN v
  | tooLarge {n : Int} : 2 ^ 1024 - 2 ^ 970 ≤ n → Unending refusesNaN (.int n)
  | infinite {x : Binary64} : x.extended = .infinite false → Unending refusesNaN (.float x)
  | notANumber {x : Binary64} : refusesNaN = true → x.extended = .notANumber →
      Unending refusesNaN (.float x)

namespace Clock

theorem limit_eq : (limit : Int) = 2 ^ 1024 - 2 ^ 970 := by decide +kernel

theorem loop_of_number {refusesNaN : Bool} {v : Json} {x : Scaled}
    (h : v.number? = some (.finite x)) : loop refusesNaN v ≠ .elapsed ↔ (limit : ℚ) ≤ x.value := by
  have hlt : x.lt (.ofInt limit) = true ↔ x.value < limit := by
    rw [Scaled.lt_iff, Scaled.value_ofInt, Int.cast_natCast]
  rw [← not_lt, ← hlt]
  simp only [loop, h]
  cases x.lt (.ofInt limit) with
  | true => exact iff_of_false (fun hover => hover rfl) fun hover => hover rfl
  | false => exact iff_of_true nofun nofun

theorem loop_float_ne_elapsed_iff {refusesNaN : Bool} {x : Binary64} :
    loop refusesNaN (.float x) ≠ .elapsed ↔
      x.extended = .infinite false ∨ refusesNaN = true ∧ x.extended = .notANumber := by
  have hnumber : (Json.float x).number? = some x.extended := rfl
  cases hx : x.extended with
  | finite y =>
    rw [hx] at hnumber
    have hfinite : x.isFinite = true := by
      by_contra hinfinite
      rw [Binary64.extended, if_neg hinfinite] at hx
      split at hx <;> cases hx
    obtain rfl : x.scaled = y := Extended.finite.inj (by
      rw [← hx, Binary64.extended_of_isFinite hfinite])
    rw [loop_of_number hnumber]
    exact iff_of_false (not_le.mpr (Binary64.value_scaled_lt hfinite)) nofun
  | infinite negative =>
    simp only [loop, hnumber, hx]
    cases negative <;> simp
  | notANumber =>
    simp only [loop, hnumber, hx]
    cases refusesNaN <;> simp

theorem loop_finite (refusesNaN : Bool) {x : Binary64} (h : x.isFinite = true) :
    loop refusesNaN (.float x) = .elapsed := by
  by_contra hover
  rw [← ne_eq, loop_float_ne_elapsed_iff, Binary64.extended_of_isFinite h] at hover
  simp at hover

/-- Among numbers only integers are too large. -/
theorem loop_ne_elapsed_iff {refusesNaN : Bool} {v : Json} :
    loop refusesNaN v ≠ .elapsed ↔ v.Unending refusesNaN := by
  cases v with
  | bool b =>
    have hsmall : (if b then 1 else 0 : Int) < limit := by cases b <;> decide +kernel
    rw [loop_of_number rfl, Scaled.value_ofInt, ← Int.cast_natCast, Int.cast_le]
    refine iff_of_false (not_le.mpr hsmall) ?_
    rintro (h | _)
    cases h
  | int n =>
    rw [loop_of_number rfl, Scaled.value_ofInt, ← Int.cast_natCast, Int.cast_le, limit_eq]
    refine ⟨.tooLarge, ?_⟩
    rintro (h | h)
    · cases h
    · exact h
  | float x =>
    rw [loop_float_ne_elapsed_iff]
    constructor
    · rintro (h | ⟨hrefused, h⟩)
      · exact .infinite h
      · exact .notANumber hrefused h
    · rintro (h | _ | h | ⟨hrefused, h⟩)
      · cases h
      · exact .inl h
      · exact .inr ⟨hrefused, h⟩
  | _ => exact iff_of_true nofun (.noNumber rfl)

end Clock

/-! ## A run -/

namespace Clock

variable {clock : Clock} {pacing : Pacing} {es : List Event}

theorem through_of_elapsed {e : Event} (h : clock.await pacing e = .elapsed) (es : List Event) :
    clock.through pacing (e :: es) =
      (e :: (clock.through pacing es).1, (clock.through pacing es).2) := by
  simp only [through, h]

theorem through_of_ne_elapsed {e : Event} (h : clock.await pacing e ≠ .elapsed) (es : List Event) :
    clock.through pacing (e :: es) = ([e], clock.await pacing e) := by
  unfold through
  split
  · exact absurd ‹_› h
  · rfl

/-- What becomes of the delays of a run: all are over some time, or one is not, and it is the
last. -/
theorem through_cases (clock : Clock) (pacing : Pacing) (es : List Event) :
    (clock.through pacing es).2 = .elapsed ∧
        (∀ m ∈ es.filterMap Event.motion?, clock (pacing.delay m) = .elapsed) ∨
      (clock.through pacing es).2 ≠ .elapsed ∧
        ∃ m ∈ es.filterMap Event.motion?, clock (pacing.delay m) = (clock.through pacing es).2 := by
  induction es with
  | nil => exact .inl ⟨rfl, nofun⟩
  | cons e es ih =>
    by_cases he : clock.await pacing e = .elapsed
    · rw [through_of_elapsed he]
      cases e with
      | slept m =>
        rcases ih with ⟨hover, hall⟩ | ⟨hstuck, k, hk, hsleep⟩
        · exact .inl ⟨hover, List.forall_mem_cons.mpr ⟨he, hall⟩⟩
        · exact .inr ⟨hstuck, k, List.mem_cons_of_mem m hk, hsleep⟩
      | _ => exact ih
    · rw [through_of_ne_elapsed he]
      cases e with
      | slept m => exact .inr ⟨he, m, List.mem_cons_self, rfl⟩
      | _ => exact absurd rfl he

theorem through_elapsed_iff : (clock.through pacing es).2 = .elapsed ↔
    ∀ m ∈ es.filterMap Event.motion?, clock (pacing.delay m) = .elapsed := by
  rcases clock.through_cases pacing es with ⟨hover, hall⟩ | ⟨hstuck, m, hm, hsleep⟩
  · exact iff_of_true hover hall
  · refine iff_of_false hstuck fun hall => hstuck ?_
    rw [← hsleep, hall m hm]

end Clock

end BlockGrid
