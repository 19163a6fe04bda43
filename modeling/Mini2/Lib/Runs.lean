import Mathlib.Logic.Function.Basic

/-!
Reachability in a system that takes one action after another, each meeting a guard.

The guard cuts the runs down to those a statement is about; the system itself does not know
of it.
-/

namespace Mini2.Runs

variable {S A V M : Type*}

/-- The states reached from `s₀` by steps that meet the guard `G`. -/
inductive Reach (step : S → A → Option S) (G : S → A → Prop) (s₀ : S) : S → Prop
  | init : Reach step G s₀ s₀
  | step {s s' : S} {a : A} (hr : Reach step G s₀ s) (hg : G s a) (hs : step s a = some s') :
    Reach step G s₀ s'

variable {step : S → A → Option S} {G G' : S → A → Prop} {s₀ s : S}

/-- The invariant rule. The preservation may use that the state before the step is reached. -/
theorem Reach.invariant {I : S → Prop} (h0 : I s₀)
    (hs : ∀ s a s', Reach step G s₀ s → I s → G s a → step s a = some s' → I s')
    (h : Reach step G s₀ s) : I s := by
  induction h with
  | init => exact h0
  | step hr hg hst ih => exact hs _ _ _ hr ih hg hst

lemma Reach.mono (hG : ∀ s a, G s a → G' s a) (h : Reach step G s₀ s) :
    Reach step G' s₀ s := by
  induction h with
  | init => exact .init
  | step _ hg hst ih => exact .step ih (hG _ _ hg) hst

/-- **The refinement rule.** When every step of the system is seen through `view` as a step
of `R` or as no step, an invariant of `R` holds of every view. -/
theorem Reach.refine (view : S → V) (R : V → M → V → Prop) {I : V → Prop} (h0 : I (view s₀))
    (hsim : ∀ s a s', Reach step G s₀ s → G s a → step s a = some s' →
      view s' = view s ∨ ∃ m, R (view s) m (view s'))
    (hI : ∀ v m v', I v → R v m v' → I v') (h : Reach step G s₀ s) : I (view s) := by
  refine h.invariant (I := fun s => I (view s)) h0 fun s a s' hr hi hg hst => ?_
  rcases hsim s a s' hr hg hst with heq | ⟨m, hm⟩
  · rw [heq]
    exact hi
  · exact hI _ m _ hi hm

/-- **The product rule.** When every step of the system is a step of one of its parts and leaves
the others as they are, a run of the system is a run of each part. -/
theorem Reach.component {I T B : Type*} [DecidableEq I] (part : S → I → T)
    (sub : I → T → B → Option T) (H : I → T → B → Prop)
    (hsim : ∀ s a s', Reach step G s₀ s → G s a → step s a = some s' →
      ∃ i b, H i (part s i) b ∧ ∃ t, sub i (part s i) b = some t ∧
        part s' = Function.update (part s) i t)
    (h : Reach step G s₀ s) (i : I) : Reach (sub i) (H i) (part s₀ i) (part s i) := by
  induction h with
  | init => exact .init
  | @step s s' a hr hg hst ih =>
    obtain ⟨j, b, hH, t, ht, hpart⟩ := hsim s a s' hr hg hst
    rw [hpart]
    by_cases hij : i = j
    · subst hij
      rw [Function.update_self]
      exact .step ih hH ht
    · rw [Function.update_of_ne hij]
      exact ih

/-- The actions in order, while they are possible and meet the guard. -/
def run (step : S → A → Option S) (G : S → A → Prop) [∀ s a, Decidable (G s a)] :
    S → List A → Option S
  | s, [] => some s
  | s, a :: as => if G s a then (step s a).bind fun s' => run step G s' as else none

lemma reach_of_run [∀ s a, Decidable (G s a)] {as : List A} {s s' : S}
    (hr : Reach step G s₀ s) (h : run step G s as = some s') : Reach step G s₀ s' := by
  induction as generalizing s with
  | nil =>
    obtain rfl : s = s' := Option.some.inj h
    exact hr
  | cons a as ih =>
    unfold run at h
    split at h
    next hg =>
      obtain ⟨t, ht, hrun⟩ := Option.bind_eq_some_iff.mp h
      exact ih (.step hr hg ht) hrun
    next => cases h

end Mini2.Runs
