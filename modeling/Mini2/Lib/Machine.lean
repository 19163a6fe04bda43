import Mathlib.Algebra.Order.Field.Power
import Mathlib.Algebra.Order.Field.Rat
import Mathlib.Tactic.Positivity
import Mathlib.Tactic.NormNum
import Mathlib.Tactic.Linarith
import Mini2.Lib.Trunc

/-!
Arithmetic of fixed width that says when a result is no value of its type, and the rationals
that are values of a double.
-/

namespace Mini2.Machine

open Mini2.Trunc

/-- The values of the signed type with so many bits. -/
def Fits (bits : ℕ) (z : ℤ) : Prop := -2 ^ (bits - 1) ≤ z ∧ z < 2 ^ (bits - 1)

instance (bits : ℕ) (z : ℤ) : Decidable (Fits bits z) := inferInstanceAs (Decidable (_ ∧ _))

/-- The result of an operation, unless it is no value of the type. -/
def checked (bits : ℕ) (z : ℤ) : Option ℤ := if Fits bits z then some z else none

/-- A cast from floating point, unless the result is no value of the type. -/
def castChecked (bits : ℕ) (x : ℚ) : Option ℤ := checked bits (trunc x)

variable {bits : ℕ} {z : ℤ}

lemma checked_of_fits (h : Fits bits z) : checked bits z = some z := if_pos h

lemma checked_of_not_fits (h : ¬ Fits bits z) : checked bits z = none := if_neg h

lemma checked_eq_some {y : ℤ} : checked bits z = some y ↔ Fits bits z ∧ z = y := by
  rw [checked, Option.ite_none_right_eq_some, Option.some.injEq]

@[simp] lemma isSome_checked : (checked bits z).isSome ↔ Fits bits z := by
  simp [checked]

/-- The values of a double: an integer below `2 ^ 53` times a power of two. -/
def IsDouble (x : ℚ) : Prop :=
  ∃ m e : ℤ, |m| < 2 ^ 53 ∧ -1074 ≤ e ∧ e ≤ 971 ∧ x = m * 2 ^ e

lemma trunc_intCast (z : ℤ) : trunc (z : ℚ) = z :=
  le_antisymm (trunc_le le_rfl) (le_trunc le_rfl)

/-- There is no double just below `2 ^ 63`. -/
lemma IsDouble.trunc_le {x : ℚ} (h : IsDouble x) (hlt : trunc x < 2 ^ 63) :
    trunc x ≤ 2 ^ 63 - 1024 := by
  obtain ⟨m, e, hm, -, -, rfl⟩ := h
  rcases le_or_gt 10 e with he | he
  · -- a multiple of 1024
    obtain ⟨k, rfl⟩ : ∃ k : ℕ, e = 10 + k := ⟨(e - 10).toNat, by omega⟩
    have hint : (m : ℚ) * 2 ^ (10 + (k : ℤ)) = ((1024 * (m * 2 ^ k) : ℤ) : ℚ) := by
      rw [zpow_add₀ two_ne_zero, zpow_natCast]
      push_cast
      ring
    rw [hint, trunc_intCast] at hlt ⊢
    omega
  · refine (Trunc.trunc_le (z := 2 ^ 62) ?_).trans (by norm_num)
    have hm' : (m : ℚ) ≤ 2 ^ 53 := by exact_mod_cast (le_abs_self m).trans hm.le
    have hpow : (2 : ℚ) ^ e ≤ 2 ^ (9 : ℤ) := zpow_le_zpow_right₀ one_le_two (by omega)
    calc (m : ℚ) * 2 ^ e
        ≤ 2 ^ 53 * 2 ^ e := mul_le_mul_of_nonneg_right hm' (by positivity)
      _ ≤ 2 ^ 53 * 2 ^ (9 : ℤ) := mul_le_mul_of_nonneg_left hpow (by positivity)
      _ = ((2 ^ 62 : ℤ) : ℚ) := by norm_num

end Mini2.Machine
