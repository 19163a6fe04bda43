import Mathlib.Order.Nat
import Mini2.Lib.Runs

/-!
What a system can still do: from a state there is a run to one of a kind. What can be done can be
done in stages, one thing after another, by descent along a rank, and in a part of the system.
-/

namespace Mini2.Runs

variable {S A T B : Type*} {step : S → A → Option S} {G G' : S → A → Prop} {P Q : S → Prop}
  {s₀ s s' : S}

lemma Reach.trans (h : Reach step G s₀ s) (h' : Reach step G s s') : Reach step G s₀ s' := by
  induction h' with
  | init => exact h
  | step _ hg hst ih => exact .step ih hg hst

/-- From the state there is a run to one where `P` holds. -/
def Can (step : S → A → Option S) (G : S → A → Prop) (P : S → Prop) (s : S) : Prop :=
  ∃ s', Reach step G s s' ∧ P s'

lemma Can.now (h : P s) : Can step G P s := ⟨s, .init, h⟩

lemma Can.first {a : A} {t : S} (hs : step s a = some t) (hg : G s a) (h : Can step G P t) :
    Can step G P s := by
  obtain ⟨u, hu, hP⟩ := h
  exact ⟨u, (Reach.step .init hg hs).trans hu, hP⟩

lemma Can.mono (hG : ∀ s a, G s a → G' s a) (hP : ∀ s, P s → Q s) (h : Can step G P s) :
    Can step G' Q s := by
  obtain ⟨t, ht, h⟩ := h
  exact ⟨t, ht.mono hG, hP t h⟩

lemma Can.bind (h : Can step G P s) (hQ : ∀ s', Reach step G s s' → P s' → Can step G Q s') :
    Can step G Q s := by
  obtain ⟨t, ht, hP⟩ := h
  obtain ⟨u, hu, hQ⟩ := hQ t ht hP
  exact ⟨u, ht.trans hu, hQ⟩

lemma Can.imp (h : Can step G P s) (hQ : ∀ s', Reach step G s s' → P s' → Q s') :
    Can step G Q s :=
  h.bind fun s' hr hP => .now (hQ s' hr hP)

/-- **The descent rule.** What can be brought closer, wherever it is, can be brought about. -/
theorem Can.descend (rank : S → ℕ)
    (h : ∀ s', Reach step G s s' → ¬ P s' → Can step G (fun t => P t ∨ rank t < rank s') s') :
    Can step G P s := by
  suffices hall : ∀ n s', Reach step G s s' → rank s' = n → Can step G P s' from
    hall _ s .init rfl
  intro n
  induction n using Nat.strong_induction_on with
  | _ n ih =>
    rintro s' hr rfl
    by_cases hP : P s'
    · exact .now hP
    · refine (h s' hr hP).bind fun t hrt ht => ?_
      rcases ht with ht | ht
      · exact .now ht
      · exact ih _ ht t (hr.trans hrt) rfl

/-- Several things one after another, where none is undone. -/
theorem Can.all {I : Type*} {P : I → S → Prop} (l : List I)
    (hkeep : ∀ i ∈ l, ∀ s₁ s₂, Reach step G s s₁ → Reach step G s₁ s₂ → P i s₁ → P i s₂)
    (h : ∀ i ∈ l, ∀ s', Reach step G s s' → Can step G (P i) s') :
    Can step G (fun s' => ∀ i ∈ l, P i s') s := by
  induction l with
  | nil => exact .now fun i hi => by cases hi
  | cons j l ih =>
    refine (ih (fun i hi => hkeep i (List.mem_cons_of_mem _ hi)) fun i hi =>
      h i (List.mem_cons_of_mem _ hi)).bind fun s₁ hr₁ hall => ?_
    refine (h j List.mem_cons_self s₁ hr₁).imp fun s₂ hr₂ hj i hi => ?_
    rcases List.mem_cons.mp hi with rfl | hi
    · exact hj
    · exact hkeep i (List.mem_cons_of_mem _ hi) s₁ s₂ hr₁ hr₂ (hall i hi)

/-- **The part rule.** What a part of the system can do, the system can do. -/
theorem Reach.embed {sub : T → B → Option T} {H : T → B → Prop} (put : T → S) (act : B → A)
    (hstep : ∀ t b t', H t b → sub t b = some t' →
      G (put t) (act b) ∧ step (put t) (act b) = some (put t'))
    {t t' : T} (h : Reach sub H t t') : Reach step G (put t) (put t') := by
  induction h with
  | init => exact .init
  | step _ hg hst ih =>
    obtain ⟨hG, hs⟩ := hstep _ _ _ hg hst
    exact .step ih hG hs

end Mini2.Runs
