import Mathlib.Data.List.Basic
import Mathlib.Data.List.TakeWhile
import Mathlib.Data.Int.Order.Basic

/-!
Whole numbers in a text: printed in so many digits at least, and read back by a format, as `printf`
and `scanf` do.
-/

namespace Mini2.Scanf

/-- `isspace` -/
def white (c : Char) : Bool := c = ' ' || c ∈ ['\t', '\n', '\x0b', '\x0c', '\r']

/-- A number in at least `width` digits. -/
def padded (width : ℕ) (z : ℤ) : List Char :=
  let digits := Nat.toDigits 10 z.natAbs
  (if z < 0 then ['-'] else []) ++ (List.replicate (width - digits.length) '0' ++ digits)

/-- `%d` -/
def scanInt (s : List Char) : Option (ℤ × List Char) :=
  let s := s.dropWhile white
  let negative := s.head? = some '-'
  let s := if negative ∨ s.head? = some '+' then s.tail else s
  let digits := s.takeWhile Char.isDigit
  if digits = [] then none
  else
    let n : ℤ := Nat.ofDigitChars 10 digits 0
    some (if negative then -n else n, s.dropWhile Char.isDigit)

inductive Piece
  | int
  | char (c : Char)
  deriving DecidableEq

/-- The numbers that are read before the text departs from the format. -/
def scan : List Piece → List Char → List ℤ
  | [], _ => []
  | .int :: f, s =>
    match scanInt s with
    | none => []
    | some (z, s) => z :: scan f s
  | .char c :: f, s =>
    if white c then scan f (s.dropWhile white)
    else
      match s with
      | [] => []
      | c' :: s => if c' = c then scan f s else []

/-- No digit follows. -/
def Stops (r : List Char) : Prop := ∀ c ∈ r.head?, c.isDigit = false

lemma stops_nil : Stops [] := fun c hc => by cases hc

lemma stops_cons {c : Char} (hc : c.isDigit = false) (r : List Char) : Stops (c :: r) := by
  rintro c' ⟨⟩
  exact hc

/-- The digits of a number with zeros in front. -/
def zeros (width n : ℕ) : List Char :=
  List.replicate (width - (Nat.toDigits 10 n).length) '0' ++ Nat.toDigits 10 n

lemma padded_eq (width : ℕ) (z : ℤ) :
    padded width z = (if z < 0 then ['-'] else []) ++ zeros width z.natAbs := rfl

lemma isDigit_of_mem_zeros {width n : ℕ} {c : Char} (h : c ∈ zeros width n) : c.isDigit = true := by
  rcases List.mem_append.mp h with h | h
  · rw [List.eq_of_mem_replicate h]
    decide
  · exact Nat.isDigit_of_mem_toDigits (by decide) (by decide) h

lemma zeros_ne_nil (width n : ℕ) : zeros width n ≠ [] :=
  List.append_ne_nil_of_right_ne_nil _ Nat.toDigits_ne_nil

lemma ofDigitChars_zeros (width n : ℕ) : Nat.ofDigitChars 10 (zeros width n) 0 = n := by
  rw [zeros, Nat.ofDigitChars_append, Nat.ofDigitChars_replicate_zero, Nat.mul_zero,
    Nat.ofDigitChars_ten_toDigits]

lemma length_zeros (width n : ℕ) :
    (zeros width n).length = max width (Nat.toDigits 10 n).length := by
  rw [zeros, List.length_append, List.length_replicate]
  omega

lemma not_white_of_isDigit {c : Char} (h : c.isDigit = true) : white c = false := by
  by_contra hw
  have hw : white c = true := by simpa using hw
  simp only [white, List.mem_cons, List.not_mem_nil, or_false, Bool.or_eq_true,
    decide_eq_true_eq] at hw
  rcases hw with rfl | rfl | rfl | rfl | rfl | rfl <;> exact absurd h (by decide)

lemma dropWhile_white {c : Char} (h : white c = false) (s : List Char) :
    (c :: s).dropWhile white = c :: s := by
  rw [List.dropWhile_cons_of_neg (by simp [h])]

lemma takeWhile_zeros (width n : ℕ) {r : List Char} (hr : Stops r) :
    (zeros width n ++ r).takeWhile Char.isDigit = zeros width n := by
  rw [List.takeWhile_append_of_pos fun c => isDigit_of_mem_zeros]
  cases r with
  | nil => simp
  | cons c r => rw [List.takeWhile_cons_of_neg (by simp [hr c rfl]), List.append_nil]

lemma dropWhile_zeros (width n : ℕ) {r : List Char} (hr : Stops r) :
    (zeros width n ++ r).dropWhile Char.isDigit = r := by
  rw [List.dropWhile_append_of_pos fun c => isDigit_of_mem_zeros]
  cases r with
  | nil => rfl
  | cons c r => rw [List.dropWhile_cons_of_neg (by simp [hr c rfl])]

/-- **What has been printed is read back.** -/
theorem scanInt_padded (width : ℕ) (z : ℤ) {r : List Char} (hr : Stops r) :
    scanInt (padded width z ++ r) = some (z, r) := by
  rw [padded_eq]
  obtain ⟨c, ds, hzeros⟩ := List.exists_cons_of_ne_nil (zeros_ne_nil width z.natAbs)
  have hmem : c ∈ zeros width z.natAbs := hzeros ▸ List.mem_cons_self
  have hdigit := isDigit_of_mem_zeros hmem
  have hvalue := ofDigitChars_zeros width z.natAbs
  have htake := takeWhile_zeros width z.natAbs hr
  have hdrop := dropWhile_zeros width z.natAbs hr
  rw [hzeros] at hvalue htake hdrop ⊢
  have hne : ∀ c' : Char, c'.isDigit = false → ¬ c = c' := by
    rintro c' hc' rfl
    rw [hdigit] at hc'
    cases hc'
  unfold scanInt
  by_cases hz : z < 0
  · rw [if_pos hz, List.cons_append, List.nil_append, List.cons_append,
      dropWhile_white (by decide)]
    simp only [List.head?_cons, true_or, if_true, List.tail_cons]
    rw [htake, hdrop, hvalue, if_neg (List.cons_ne_nil _ _)]
    have habs : -(z.natAbs : ℤ) = z := by omega
    rw [habs]
  · rw [if_neg hz, List.nil_append, List.cons_append, dropWhile_white (not_white_of_isDigit hdigit)]
    have hminus := hne '-' (by decide)
    have hplus := hne '+' (by decide)
    simp only [List.head?_cons, Option.some.injEq, hminus, hplus, or_self, if_false]
    rw [List.cons_append] at htake hdrop
    rw [htake, hdrop, hvalue, if_neg (List.cons_ne_nil _ _)]
    have habs : (z.natAbs : ℤ) = z := by omega
    rw [habs]

lemma scan_int (f : List Piece) (width : ℕ) (z : ℤ) {r : List Char} (hr : Stops r) :
    scan (.int :: f) (padded width z ++ r) = z :: scan f r := by
  rw [scan, scanInt_padded width z hr]

lemma scan_char (f : List Piece) {c : Char} (hc : white c = false) (r : List Char) :
    scan (.char c :: f) (c :: r) = scan f r := by
  simp [scan, hc]

/-- A space of the format takes a space of the text, in front of a number. -/
lemma scan_space (f : List Piece) (width : ℕ) {z : ℤ} (r : List Char) :
    scan (.char ' ' :: f) (' ' :: (padded width z ++ r)) = scan f (padded width z ++ r) := by
  have hsolid : (padded width z ++ r).dropWhile white = padded width z ++ r := by
    rw [padded_eq]
    by_cases hz : z < 0
    · rw [if_pos hz]
      exact dropWhile_white (by decide) _
    · obtain ⟨c, ds, hzeros⟩ := List.exists_cons_of_ne_nil (zeros_ne_nil width z.natAbs)
      have hmem : c ∈ zeros width z.natAbs := hzeros ▸ List.mem_cons_self
      rw [if_neg hz, List.nil_append, hzeros]
      exact dropWhile_white (not_white_of_isDigit (isDigit_of_mem_zeros hmem)) _
  rw [scan, if_pos (by decide), List.dropWhile_cons_of_pos (by decide), hsolid]

lemma scan_nil (s : List Char) : scan [] s = [] := rfl

end Mini2.Scanf
