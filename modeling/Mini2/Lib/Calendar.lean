import Mathlib.Data.List.Count
import Mathlib.Data.List.Basic
import Mathlib.Tactic.Ring
import Mathlib.Data.Int.Order.Basic

/-!
The proleptic Gregorian calendar: the year and the month of a day, where days are counted
from 1 January 1970.
-/

namespace Mini2.Calendar

def isLeap (y : ℤ) : Bool := (y % 4 == 0 && y % 100 != 0) || y % 400 == 0

def yearStart (y : ℤ) : ℤ :=
  365 * (y - 1970) + (y - 1969) / 4 - (y - 1901) / 100 + (y - 1601) / 400

lemma yearStart_succ (y : ℤ) :
    yearStart (y + 1) = yearStart y + if isLeap y then 366 else 365 := by
  have h4 : (y + 1 - 1969) / 4 = (y - 1969) / 4 + if y % 4 = 0 then 1 else 0 := by
    split <;> omega
  have h100 : (y + 1 - 1901) / 100 = (y - 1901) / 100 + if y % 100 = 0 then 1 else 0 := by
    split <;> omega
  have h400 : (y + 1 - 1601) / 400 = (y - 1601) / 400 + if y % 400 = 0 then 1 else 0 := by
    split <;> omega
  have h1 : y % 400 = 0 → y % 100 = 0 := by omega
  have h2 : y % 100 = 0 → y % 4 = 0 := by omega
  unfold yearStart isLeap
  rw [h4, h100, h400]
  by_cases c4 : y % 4 = 0 <;> by_cases c100 : y % 100 = 0 <;> by_cases c400 : y % 400 = 0 <;>
    simp_all <;> ring

/-- The year of a day: an estimate by the mean length of a year, off by at most one. -/
def yearOf (d : ℤ) : ℤ :=
  let y := 1970 + 400 * d / 146097
  if d < yearStart y then y - 1 else if yearStart (y + 1) ≤ d then y + 1 else y

lemma yearOf_spec (d : ℤ) : yearStart (yearOf d) ≤ d ∧ d < yearStart (yearOf d + 1) := by
  simp only [yearOf]
  split
  case isTrue h =>
    rw [sub_add_cancel]
    refine ⟨?_, h⟩
    unfold yearStart at *
    omega
  case isFalse h =>
    split
    case isTrue h' =>
      refine ⟨h', ?_⟩
      unfold yearStart at *
      omega
    case isFalse h' => exact ⟨not_lt.mp h, not_le.mp h'⟩

lemma yearStart_mono {x y : ℤ} (h : x ≤ y) : yearStart x ≤ yearStart y := by
  unfold yearStart
  omega

lemma yearOf_mono {a b : ℤ} (h : a ≤ b) : yearOf a ≤ yearOf b := by
  by_contra hc
  have h1 := yearStart_mono (show yearOf b + 1 ≤ yearOf a by omega)
  have h2 := yearOf_spec a
  have h3 := yearOf_spec b
  omega

/-- The days of a year on which its months begin, counted from the first of January. -/
def monthStarts (leap : Bool) : List ℤ :=
  let l := if leap then 1 else 0
  [0, 31, 59 + l, 90 + l, 120 + l, 151 + l, 181 + l, 212 + l, 243 + l, 273 + l, 304 + l, 334 + l]

/-- The month, `1 … 12`, of a day: the number of months of its year begun by then. -/
def monthOf (d : ℤ) : ℤ :=
  let y := yearOf d
  (monthStarts (isLeap y)).countP fun s => s ≤ d - yearStart y

lemma monthOf_bounds (d : ℤ) : 1 ≤ monthOf d ∧ monthOf d ≤ 12 := by
  have hlen : ∀ leap, (monthStarts leap).length = 12 := fun leap => rfl
  have hfirst : 0 ≤ d - yearStart (yearOf d) := by
    have hspec := yearOf_spec d
    omega
  have hpos : 0 < (monthStarts (isLeap (yearOf d))).countP
      fun s => s ≤ d - yearStart (yearOf d) :=
    List.countP_pos_iff.mpr ⟨0, List.mem_cons_self, decide_eq_true hfirst⟩
  have hle := List.countP_le_length (p := fun s => decide (s ≤ d - yearStart (yearOf d)))
    (l := monthStarts (isLeap (yearOf d)))
  rw [hlen] at hle
  unfold monthOf
  dsimp only
  omega

lemma exists_monthOf {m : ℤ} (h1 : 1 ≤ m) (h12 : m ≤ 12) : ∃ d, monthOf d = m := by
  have hdays : ∀ k : Fin 12, ∃ d ∈ monthStarts false, monthOf d = k + 1 := by decide
  obtain ⟨d, -, hd⟩ := hdays ⟨(m - 1).toNat, by omega⟩
  refine ⟨d, hd.trans ?_⟩
  dsimp only
  omega

lemma monthOf_mono {a b : ℤ} (h : a ≤ b) (hy : yearOf a = yearOf b) : monthOf a ≤ monthOf b := by
  simp only [monthOf, hy]
  have : (monthStarts (isLeap (yearOf b))).countP (fun s => s ≤ a - yearStart (yearOf b))
      ≤ (monthStarts (isLeap (yearOf b))).countP (fun s => s ≤ b - yearStart (yearOf b)) := by
    refine List.countP_mono_left fun s _ hs => ?_
    rw [decide_eq_true_eq] at hs ⊢
    omega
  exact_mod_cast this

/-! ### Days of a month -/

/-- The first day of a month; months are counted from zero, and past the ends of the year. -/
def monthStart (y m : ℤ) : ℤ :=
  yearStart (y + m / 12) + (monthStarts (isLeap (y + m / 12))).getD (m % 12).toNat 0

/-- The day of the month, `1 … 31`. -/
def dayOf (d : ℤ) : ℤ := d - monthStart (yearOf d) (monthOf d - 1) + 1

lemma monthStart_of_range (y : ℤ) {k : ℕ} (hk : k < 12) :
    monthStart y k = yearStart y + (monthStarts (isLeap y)).getD k 0 := by
  have hdiv : (k : ℤ) / 12 = 0 := by omega
  have hmod : ((k : ℤ) % 12).toNat = k := by omega
  rw [monthStart, hdiv, hmod, add_zero]

lemma monthStart_twelve (y : ℤ) : monthStart y 12 = yearStart (y + 1) := by
  rw [monthStart]
  norm_num [monthStarts]

lemma yearOf_eq {y d : ℤ} (h : yearStart y ≤ d) (h' : d < yearStart (y + 1)) : yearOf d = y := by
  obtain ⟨hlo, hhi⟩ := yearOf_spec d
  rcases lt_trichotomy (yearOf d) y with hlt | heq | hgt
  · have hmono := yearStart_mono (show yearOf d + 1 ≤ y by omega)
    omega
  · exact heq
  · have hmono := yearStart_mono (show y + 1 ≤ yearOf d by omega)
    omega

lemma monthStarts_cut (y : ℤ) (k : Fin 12) :
    (∀ s ∈ (monthStarts (isLeap y)).take (k + 1), s ≤ monthStart y k - yearStart y) ∧
      ∀ s ∈ (monthStarts (isLeap y)).drop (k + 1), monthStart y (k + 1) - yearStart y ≤ s := by
  have hcut : ∀ leap, ∀ k : Fin 12, (∀ s ∈ (monthStarts leap).take (k + 1),
      s ≤ (monthStarts leap).getD k 0) ∧ ∀ s ∈ (monthStarts leap).drop (k + 1),
      (monthStarts leap).getD (k + 1) 0 ≤ s := by decide
  obtain ⟨htake, hdrop⟩ := hcut (isLeap y) k
  rw [monthStart_of_range y k.isLt, add_sub_cancel_left]
  refine ⟨htake, fun s hs => ?_⟩
  by_cases hk : (k : ℕ) + 1 < 12
  · have hstart := monthStart_of_range y hk
    push_cast at hstart
    rw [hstart, add_sub_cancel_left]
    exact hdrop s hs
  · have hnil : (monthStarts (isLeap y)).drop (k + 1) = [] :=
      List.drop_eq_nil_of_le (by simp [monthStarts]; omega)
    rw [hnil] at hs
    cases hs

/-- The year and the month of a day between the first of a month and the first of the next. -/
lemma monthOf_eq {y d : ℤ} {k : ℕ} (hk : k < 12) (h : monthStart y k ≤ d)
    (h' : d < monthStart y (k + 1)) : yearOf d = y ∧ monthOf d = k + 1 := by
  obtain ⟨htake, hdrop⟩ := monthStarts_cut y ⟨k, hk⟩
  have hfirst : yearStart y ≤ monthStart y k := by
    have hmem : (0 : ℤ) ∈ (monthStarts (isLeap y)).take (k + 1) := by simp [monthStarts]
    have hle := htake 0 hmem
    dsimp only at hle
    omega
  have hnext : monthStart y (k + 1) ≤ yearStart (y + 1) := by
    rw [← monthStart_twelve]
    have hsucc := yearStart_succ y
    have hlast := monthStart_twelve y
    by_cases h12 : k + 1 < 12
    · have hstart := monthStart_of_range y h12
      push_cast at hstart
      have hle : ∀ leap, ∀ k : Fin 12, (monthStarts leap).getD k 0 ≤ if leap then 366 else 365 := by
        decide
      have hle := hle (isLeap y) ⟨k + 1, h12⟩
      dsimp only at hle
      omega
    · obtain rfl : k = 11 := by omega
      exact le_rfl
  have hyear := yearOf_eq (hfirst.trans h) (h'.trans_le hnext)
  refine ⟨hyear, ?_⟩
  have hcount : (monthStarts (isLeap y)).countP (fun s => s ≤ d - yearStart y) = k + 1 := by
    rw [← List.take_append_drop (k + 1) (monthStarts (isLeap y)), List.countP_append]
    have hin : ((monthStarts (isLeap y)).take (k + 1)).countP (fun s => s ≤ d - yearStart y) =
        k + 1 := by
      rw [List.countP_eq_length.mpr fun s hs => ?_]
      · simp [monthStarts]
        omega
      · have hle := htake s hs
        dsimp only at hle
        simp only [decide_eq_true_eq]
        omega
    have hout : ((monthStarts (isLeap y)).drop (k + 1)).countP (fun s => s ≤ d - yearStart y) =
        0 := by
      rw [List.countP_eq_zero]
      intro s hs
      have hle := hdrop s hs
      dsimp only at hle
      simp only [decide_eq_true_eq]
      omega
    rw [hin, hout, add_zero]
  unfold monthOf
  dsimp only
  rw [hyear, hcount]
  push_cast
  rfl

lemma monthLength_le (y : ℤ) {k : ℕ} (hk : k < 12) :
    monthStart y (k + 1) - monthStart y k ≤ 31 := by
  rw [monthStart_of_range y hk]
  by_cases h12 : k + 1 < 12
  · have hnext := monthStart_of_range y h12
    push_cast at hnext
    have hle : ∀ leap, ∀ k : Fin 12, (k : ℕ) + 1 < 12 →
        (monthStarts leap).getD (k + 1) 0 - (monthStarts leap).getD k 0 ≤ 31 := by decide
    have hle := hle (isLeap y) ⟨k, hk⟩ h12
    dsimp only at hle
    omega
  · obtain rfl : k = 11 := by omega
    have hnext : monthStart y ((11 : ℕ) + 1) = yearStart (y + 1) := monthStart_twelve y
    have hsucc := yearStart_succ y
    rw [hnext, hsucc]
    cases isLeap y <;> simp [monthStarts]

lemma monthOf_spec (d : ℤ) : monthStart (yearOf d) (monthOf d - 1) ≤ d ∧
    d < monthStart (yearOf d) (monthOf d) := by
  obtain ⟨hlo, hhi⟩ := yearOf_spec d
  have hfind : ∀ n : ℕ, n ≤ 12 → d < monthStart (yearOf d) n →
      ∃ k < n, monthStart (yearOf d) k ≤ d ∧ d < monthStart (yearOf d) (k + 1) := by
    intro n hn hlt
    induction n with
    | zero =>
      have hfirst := monthStart_of_range (yearOf d) (show 0 < 12 by decide)
      rw [hfirst] at hlt
      simp only [monthStarts, List.getD_cons_zero, add_zero] at hlt
      omega
    | succ n ih =>
      by_cases hd : d < monthStart (yearOf d) n
      · obtain ⟨k, hk, hspec⟩ := ih (by omega) hd
        exact ⟨k, by omega, hspec⟩
      · exact ⟨n, by omega, by omega, by exact_mod_cast hlt⟩
  have hlast : d < monthStart (yearOf d) (12 : ℕ) := hhi.trans_eq (monthStart_twelve _).symm
  obtain ⟨k, hk, h, h'⟩ := hfind 12 le_rfl hlast
  rw [(monthOf_eq hk h h').2, add_sub_cancel_right]
  exact ⟨h, h'⟩

example : monthOf 0 = 1 ∧ monthOf 58 = 2 ∧ monthOf 59 = 3 ∧ monthOf (-1) = 12 := by decide

end Mini2.Calendar
