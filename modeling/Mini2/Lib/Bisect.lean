import Mathlib.Data.List.Range
import Mathlib.Order.Lattice

/-!
Binary search. `bisect` finds where the elements with a property end, in a list that has all of
them in front; its two instances cut a sorted list at a value.
-/

namespace Mini2.Bisect

variable {α : Type*}

/-- Where the elements that come before end, if that is between `lo` and `hi`. -/
def bisect (before : α → Bool) (l : List α) (lo hi : ℕ) : ℕ :=
  if lo < hi then
    let mid := (lo + hi) / 2
    match l[mid]? with
    | some x => if before x then bisect before l (mid + 1) hi else bisect before l lo mid
    | none => lo
  else lo
termination_by hi - lo

variable {before : α → Bool} {l : List α}

/-- What comes before is in front of what does not. -/
def Split (before : α → Bool) (l : List α) : Prop :=
  l.Pairwise fun x y => before y = true → before x = true

lemma Split.before_of_le (h : Split before l) {i j : ℕ} {x y : α} (hij : i ≤ j)
    (hx : l[i]? = some x) (hy : l[j]? = some y) (hby : before y = true) : before x = true := by
  rcases Nat.eq_or_lt_of_le hij with rfl | hlt
  · rw [hx] at hy
    exact Option.some.inj hy ▸ hby
  · obtain ⟨hi, rfl⟩ := List.getElem?_eq_some_iff.mp hx
    obtain ⟨hj, rfl⟩ := List.getElem?_eq_some_iff.mp hy
    exact List.pairwise_iff_getElem.mp h i j hi hj hlt hby

/-- The search keeps what comes before on its left and the rest on its right. -/
lemma bisect_spec (h : Split before l) (lo hi : ℕ) (hhi : hi ≤ l.length)
    (hleft : ∀ i x, i < lo → l[i]? = some x → before x = true)
    (hright : ∀ i x, hi ≤ i → l[i]? = some x → before x = false) (hle : lo ≤ hi) (i : ℕ) (x : α)
    (hx : l[i]? = some x) : i < bisect before l lo hi ↔ before x = true := by
  fun_induction bisect before l lo hi with
  | case1 lo hi hlt mid y hy hby ih =>
    refine ih hhi (fun j z hj hz => ?_) hright (by omega)
    exact h.before_of_le (Nat.le_of_lt_succ hj) hz hy hby
  | case2 lo hi hlt mid y hy hby ih =>
    refine ih (by omega) hleft (fun j z hj hz => ?_) (by omega)
    by_contra hbz
    exact hby (h.before_of_le hj hy hz (by simpa using hbz))
  | case3 lo hi hlt mid hnone =>
    have hout := List.getElem?_eq_none_iff.mp hnone
    omega
  | case4 lo hi hge =>
    constructor
    · exact fun hi => hleft i x hi hx
    · intro hbx
      by_contra hi
      exact absurd hbx (by simp [hright i x (by omega) hx])

lemma lt_bisect_iff (h : Split before l) {i : ℕ} {x : α} (hx : l[i]? = some x) :
    i < bisect before l 0 l.length ↔ before x = true := by
  refine bisect_spec h 0 l.length (Nat.le_refl _) (fun j z hj => absurd hj (Nat.not_lt_zero j))
    (fun j z hj hz => ?_) (Nat.zero_le _) i x hx
  rw [List.getElem?_eq_none hj] at hz
  cases hz

lemma bisect_le (before : α → Bool) (l : List α) (lo hi : ℕ) (h : lo ≤ hi) :
    bisect before l lo hi ≤ hi := by
  fun_induction bisect before l lo hi with
  | case1 lo hi hlt mid y hy hby ih => exact ih (by omega)
  | case2 lo hi hlt mid y hy hby ih => exact (ih (by omega)).trans (by omega)
  | case3 lo hi hlt mid hnone => exact h
  | case4 lo hi hge => exact h

section Sorted

variable [LinearOrder α]

/-- In front of the first element that is not below the value. -/
def bisectLeft (l : List α) (x : α) : ℕ := bisect (· < x) l 0 l.length

/-- In front of the first element above the value. -/
def bisectRight (l : List α) (x : α) : ℕ := bisect (· ≤ x) l 0 l.length

lemma bisectLeft_le_length (l : List α) (x : α) : bisectLeft l x ≤ l.length :=
  bisect_le _ _ _ _ (Nat.zero_le _)

lemma bisectRight_le_length (l : List α) (x : α) : bisectRight l x ≤ l.length :=
  bisect_le _ _ _ _ (Nat.zero_le _)

lemma lt_bisectLeft_iff (h : l.Pairwise (· ≤ ·)) {i : ℕ} {x y : α} (hy : l[i]? = some y) :
    i < bisectLeft l x ↔ y < x := by
  have hsplit : Split (fun z => decide (z < x)) l := h.imp fun hab hb =>
    decide_eq_true (hab.trans_lt (of_decide_eq_true hb))
  rw [bisectLeft, lt_bisect_iff hsplit hy, decide_eq_true_iff]

lemma lt_bisectRight_iff (h : l.Pairwise (· ≤ ·)) {i : ℕ} {x y : α} (hy : l[i]? = some y) :
    i < bisectRight l x ↔ y ≤ x := by
  have hsplit : Split (fun z => decide (z ≤ x)) l := h.imp fun hab hb =>
    decide_eq_true (hab.trans (of_decide_eq_true hb))
  rw [bisectRight, lt_bisect_iff hsplit hy, decide_eq_true_iff]

end Sorted

end Mini2.Bisect
