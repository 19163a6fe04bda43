import Mathlib.Data.Nat.Notation

/-!
Runs in which someone waits for a turn. Some of the steps are ticks, and some of the ticks are the
turns of the one that waits. Where every other tick lowers a measure that nothing raises but a
turn, the turns come as often as the measure allows.
-/

namespace Mini2.Waiting

variable {S A : Type*}

/-- A run with `k` ticks, of which `j` are turns, by steps that meet the guard. -/
inductive Run (step : S → A → Option S) (G tick turn : S → A → Prop) (s₀ : S) : ℕ → ℕ → S → Prop
  | start : Run step G tick turn s₀ 0 0 s₀
  | other {k j : ℕ} {s s' : S} {a : A} (h : Run step G tick turn s₀ k j s) (hg : G s a)
    (hs : step s a = some s') (ht : ¬ tick s a) : Run step G tick turn s₀ k j s'
  | pass {k j : ℕ} {s s' : S} {a : A} (h : Run step G tick turn s₀ k j s) (hg : G s a)
    (hs : step s a = some s') (ht : tick s a) (hn : ¬ turn s a) :
    Run step G tick turn s₀ (k + 1) j s'
  | turn {k j : ℕ} {s s' : S} {a : A} (h : Run step G tick turn s₀ k j s) (hg : G s a)
    (hs : step s a = some s') (ht : tick s a) (hn : turn s a) :
    Run step G tick turn s₀ (k + 1) (j + 1) s'

variable {step : S → A → Option S} {G G' tick turn : S → A → Prop} {s₀ s : S} {k j : ℕ}

lemma Run.mono (hG : ∀ s a, G s a → G' s a) (h : Run step G tick turn s₀ k j s) :
    Run step G' tick turn s₀ k j s := by
  induction h with
  | start => exact .start
  | other _ hg hs ht ih => exact .other ih (hG _ _ hg) hs ht
  | pass _ hg hs ht hn ih => exact .pass ih (hG _ _ hg) hs ht hn
  | turn _ hg hs ht hn ih => exact .turn ih (hG _ _ hg) hs ht hn

theorem Run.invariant {I : ℕ → S → Prop} (h0 : I 0 s₀)
    (hstay : ∀ j s a s', I j s → G s a → step s a = some s' → ¬ (tick s a ∧ turn s a) → I j s')
    (hturn : ∀ j s a s', I j s → G s a → step s a = some s' → tick s a → turn s a → I (j + 1) s')
    (h : Run step G tick turn s₀ k j s) : I j s := by
  induction h with
  | start => exact h0
  | other _ hg hs ht ih => exact hstay _ _ _ _ ih hg hs fun h => ht h.1
  | pass _ hg hs _ hn ih => exact hstay _ _ _ _ ih hg hs fun h => hn h.2
  | turn _ hg hs ht hn ih => exact hturn _ _ _ _ ih hg hs ht hn

/-- **The waiting rule.** A measure below `B` that every tick lowers, unless it is a turn: then in
`n` times `B` ticks there are `n` turns. -/
theorem Run.le_turns {I : S → Prop} {μ : S → ℕ} {B : ℕ} (h0 : I s₀)
    (hI : ∀ s a s', I s → G s a → step s a = some s' → I s') (hμ : ∀ s, I s → μ s < B)
    (hother : ∀ s a s', I s → G s a → step s a = some s' → ¬ tick s a → μ s' ≤ μ s)
    (hpass : ∀ s a s', I s → G s a → step s a = some s' → tick s a → ¬ turn s a → μ s' < μ s)
    (h : Run step G tick turn s₀ k j s) {n : ℕ} (hk : n * B ≤ k) : n ≤ j := by
  suffices hle : I s ∧ k + μ s ≤ j * B + μ s₀ by
    have hlt : n * B < (j + 1) * B := by
      have h₀ := hμ s₀ h0
      have hexp : (j + 1) * B = j * B + B := Nat.succ_mul j B
      omega
    exact Nat.lt_succ_iff.mp (Nat.lt_of_mul_lt_mul_right hlt)
  clear hk
  induction h with
  | start => exact ⟨h0, by omega⟩
  | other _ hg hs ht ih =>
    obtain ⟨hi, hle⟩ := ih
    have hlow := hother _ _ _ hi hg hs ht
    exact ⟨hI _ _ _ hi hg hs, by omega⟩
  | pass _ hg hs ht hn ih =>
    obtain ⟨hi, hle⟩ := ih
    have hlow := hpass _ _ _ hi hg hs ht hn
    exact ⟨hI _ _ _ hi hg hs, by omega⟩
  | @turn k j s s' a _ hg hs _ _ ih =>
    obtain ⟨hi, hle⟩ := ih
    have hi' := hI _ _ _ hi hg hs
    have hlt := hμ _ hi'
    have hexp : (j + 1) * B = j * B + B := Nat.succ_mul j B
    exact ⟨hi', by omega⟩

end Mini2.Waiting
