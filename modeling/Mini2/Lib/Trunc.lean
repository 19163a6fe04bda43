import Mathlib.Data.Rat.Floor

/-!
Truncation of a rational toward zero, as a cast from floating point to an integer does it.
-/

namespace Mini2.Trunc

def trunc (x : ℚ) : ℤ := if 0 ≤ x then ⌊x⌋ else ⌈x⌉

lemma trunc_of_nonneg {x : ℚ} (h : 0 ≤ x) : trunc x = ⌊x⌋ := if_pos h

lemma trunc_of_neg {x : ℚ} (h : x < 0) : trunc x = ⌈x⌉ := if_neg (not_le.mpr h)

lemma trunc_le {x : ℚ} {z : ℤ} (h : x ≤ z) : trunc x ≤ z := by
  rcases le_or_gt 0 x with h0 | h0
  · rw [trunc_of_nonneg h0]
    exact_mod_cast (Int.floor_le x).trans h
  · rw [trunc_of_neg h0]
    exact Int.ceil_le.mpr h

lemma le_trunc {x : ℚ} {z : ℤ} (h : (z : ℚ) ≤ x) : z ≤ trunc x := by
  rcases le_or_gt 0 x with h0 | h0
  · rw [trunc_of_nonneg h0]
    exact Int.le_floor.mpr h
  · rw [trunc_of_neg h0]
    exact_mod_cast h.trans (Int.le_ceil x)

lemma trunc_mono {x y : ℚ} (h : x ≤ y) : trunc x ≤ trunc y := by
  rcases le_or_gt 0 x with hx | hx
  · rw [trunc_of_nonneg hx, trunc_of_nonneg (hx.trans h)]
    exact Int.floor_le_floor h
  · rcases le_or_gt 0 y with hy | hy
    · rw [trunc_of_neg hx, trunc_of_nonneg hy]
      have h1 : ⌈x⌉ ≤ 0 := Int.ceil_le.mpr (by exact_mod_cast hx.le)
      have h2 : 0 ≤ ⌊y⌋ := Int.floor_nonneg.mpr hy
      omega
    · rw [trunc_of_neg hx, trunc_of_neg hy]
      exact Int.ceil_le_ceil h

lemma trunc_nonneg {x : ℚ} (h : 0 ≤ x) : 0 ≤ trunc x :=
  le_trunc (by exact_mod_cast h)

end Mini2.Trunc
