import Mathlib.Data.Nat.Notation

/-!
Machines that take one step after another, for as long as there is one. A path is made of steps
from states of one kind, and they are counted: where each step lowers a measure, no path is longer
than the measure of its first state.
-/

namespace Mini2.Descent

variable {S : Type*}

/-- `n` steps lead from one state to another, each from a state of which `P` holds. -/
inductive Path (step : S → Option S) (P : S → Prop) : ℕ → S → S → Prop
  | refl (s : S) : Path step P 0 s s
  | head {n : ℕ} {s s' s'' : S} (hp : P s) (hs : step s = some s') (h : Path step P n s' s'') :
      Path step P (n + 1) s s''

variable {step : S → Option S} {P Q : S → Prop} {n m : ℕ} {s s' s'' : S}

lemma Path.single (hp : P s) (hs : step s = some s') : Path step P 1 s s' := .head hp hs (.refl s')

lemma Path.mono (hPQ : ∀ s, P s → Q s) (h : Path step P n s s') : Path step Q n s s' := by
  induction h with
  | refl s => exact .refl s
  | head hp hs _ ih => exact .head (hPQ _ hp) hs ih

lemma Path.trans (h : Path step P n s s') (h' : Path step P m s' s'') :
    Path step P (m + n) s s'' := by
  induction h with
  | refl s => exact h'
  | head hp hs _ ih => exact .head hp hs (ih h')

/-- The invariant rule. -/
theorem Path.invariant {I : S → Prop} (hI : ∀ s s', I s → step s = some s' → I s')
    (h : Path step P n s s') (h0 : I s) : I s' := by
  induction h with
  | refl s => exact h0
  | head hp hs _ ih => exact ih (hI _ _ h0 hs)

/-- **The measure rule.** What the steps of a path use up is at least their number. -/
theorem Path.add_measure_le {I : S → Prop} {μ : S → ℕ}
    (hI : ∀ s s', I s → step s = some s' → I s' ∧ μ s' < μ s) (h : Path step P n s s')
    (h0 : I s) : n + μ s' ≤ μ s := by
  induction h with
  | refl s => omega
  | head hp hs _ ih =>
    obtain ⟨h1, hlt⟩ := hI _ _ h0 hs
    have hle := ih h1
    omega

end Mini2.Descent
