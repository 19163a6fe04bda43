import Mathlib.Data.Fintype.Pigeonhole
import Mathlib.Data.Fintype.EquivFin
import Mathlib.Logic.Relation
import Mathlib.Order.Basic

/-!
The orbit of a partial step, which goes from state to state until there is no next one. If the
steps lead to finitely many states, an orbit that does not end runs into a circle.
-/

namespace Mini2.Orbit

variable {σ : Type*} {step : σ → Option σ} {s t : σ} {m n k : ℕ}

/-- The state after `k` steps. -/
def orbit (step : σ → Option σ) : ℕ → σ → Option σ
  | 0, s => some s
  | k + 1, s => (step s).bind (orbit step k)

def Ends (step : σ → Option σ) (s : σ) : Prop := ∃ k, orbit step k s = none

def Next (step : σ → Option σ) (s t : σ) : Prop := step s = some t

/-- The orbit comes to a state that leads back to itself. -/
def Circles (step : σ → Option σ) (s : σ) : Prop :=
  ∃ t, Relation.ReflTransGen (Next step) s t ∧ Relation.TransGen (Next step) t t

lemma orbit_add (m n : ℕ) (s : σ) :
    orbit step (m + n) s = (orbit step m s).bind (orbit step n) := by
  induction m generalizing s with
  | zero => simp [orbit]
  | succ m ih =>
    rw [Nat.succ_add]
    show (step s).bind (orbit step (m + n)) = ((step s).bind (orbit step m)).bind (orbit step n)
    cases step s with
    | none => rfl
    | some t => exact ih t

lemma orbit_succ (h : orbit step k s = some t) : orbit step (k + 1) s = step t := by
  rw [orbit_add, h]
  show (step t).bind (orbit step 0) = step t
  cases step t <;> rfl

lemma orbit_none_of_le (h : orbit step m s = none) (hmn : m ≤ n) : orbit step n s = none := by
  obtain ⟨d, rfl⟩ := Nat.exists_eq_add_of_le hmn
  rw [orbit_add, h]
  rfl

lemma Ends.of_next (h : step s = some t) (ht : Ends step t) : Ends step s := by
  obtain ⟨k, hk⟩ := ht
  exact ⟨k + 1, by simp [orbit, h, hk]⟩

lemma Ends.next (h : Ends step s) (hst : step s = some t) : Ends step t := by
  obtain ⟨k, hk⟩ := h
  refine ⟨k, ?_⟩
  have hle := orbit_none_of_le hk (Nat.le_succ k)
  simpa [orbit, hst] using hle

/-- A step that lowers a number ends. -/
theorem ends_of_measure (μ : σ → ℕ) (h : ∀ s t, step s = some t → μ t < μ s) (s : σ) :
    Ends step s := by
  induction hn : μ s using Nat.strong_induction_on generalizing s with
  | _ n ih =>
    cases hs : step s with
    | none => exact ⟨1, by simp [orbit, hs]⟩
    | some t => exact .of_next hs (ih (μ t) (hn ▸ h s t hs) t rfl)

lemma reflTransGen_of_orbit (h : orbit step k s = some t) :
    Relation.ReflTransGen (Next step) s t := by
  induction k generalizing s with
  | zero =>
    obtain rfl : s = t := Option.some.inj h
    exact .refl
  | succ k ih =>
    obtain ⟨u, hu, hrest⟩ := Option.bind_eq_some_iff.mp h
    exact .head hu (ih hrest)

lemma transGen_of_orbit (h : orbit step (k + 1) s = some t) :
    Relation.TransGen (Next step) s t := by
  obtain ⟨u, hu, hrest⟩ := Option.bind_eq_some_iff.mp h
  exact Relation.TransGen.head' hu (reflTransGen_of_orbit hrest)

lemma ends_of_reflTransGen (h : Relation.ReflTransGen (Next step) s t) (hs : Ends step s) :
    Ends step t := by
  induction h with
  | refl => exact hs
  | tail _ hnext ih => exact ih.next hnext

lemma not_transGen_self (h : Ends step s) : ¬ Relation.TransGen (Next step) s s := by
  obtain ⟨k, hk⟩ := h
  induction k generalizing s with
  | zero => cases hk
  | succ k ih =>
    intro hself
    obtain ⟨t, hst, hts⟩ := Relation.TransGen.head'_iff.mp hself
    have ht : orbit step k t = none := by
      have hnext : step s = some t := hst
      simpa [orbit, hnext] using hk
    exact ih ht (Relation.TransGen.tail' hts hst)

/-- **An orbit among finitely many states ends unless it circles.** -/
theorem ends_iff {states : Set σ} (hfin : states.Finite)
    (hstep : ∀ s t, step s = some t → t ∈ states) : Ends step s ↔ ¬ Circles step s := by
  constructor
  · rintro h ⟨t, hst, htt⟩
    exact not_transGen_self (ends_of_reflTransGen hst h) htt
  · intro hno
    by_contra hnot
    have hall : ∀ k, ∃ t, orbit step (k + 1) s = some t := fun k =>
      Option.ne_none_iff_exists'.mp fun hk => hnot ⟨k + 1, hk⟩
    choose a ha using hall
    have hmem : ∀ k, a k ∈ states := by
      intro k
      obtain ⟨t, ht⟩ := Option.ne_none_iff_exists'.mp fun hk : orbit step k s = none => hnot ⟨k, hk⟩
      exact hstep t (a k) ((orbit_succ ht).symm.trans (ha k))
    -- two of the infinitely many states are the same
    have := hfin.to_subtype
    obtain ⟨i, j, hne, heq⟩ :=
      Finite.exists_ne_map_eq_of_infinite fun k => (⟨a k, hmem k⟩ : states)
    have hcircle : ∀ i j, i < j → a i = a j → Circles step s := by
      intro i j hlt hij
      obtain ⟨d, rfl⟩ := Nat.exists_eq_add_of_lt hlt
      refine ⟨a i, reflTransGen_of_orbit (ha i), transGen_of_orbit (k := d) ?_⟩
      have hj := ha (i + d + 1)
      rw [show i + d + 1 + 1 = (i + 1) + (d + 1) by omega, orbit_add, ha i, ← hij] at hj
      exact hj
    have hij : a i = a j := congrArg Subtype.val heq
    rcases Nat.lt_or_gt_of_ne hne with hlt | hgt
    · exact hno (hcircle i j hlt hij)
    · exact hno (hcircle j i hgt hij.symm)

end Mini2.Orbit
