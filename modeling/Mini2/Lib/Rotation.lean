import Mathlib.Data.List.Perm.Basic
import Mathlib.Logic.Function.Iterate

/-!
Machines that serve in rotation: a turn serves the first item of a plan and puts it last. The
plan lists an item as often as it is served before the plan is back where it was.
-/

namespace Mini2.Rotation

variable {σ α : Type*}

/-- What `k` turns in a row serve. -/
def turns (serve : σ → α) (step : σ → σ) : ℕ → σ → List α
  | 0, _ => []
  | k + 1, s => serve s :: turns serve step k (step s)

/-- Every state that is good has a plan, and a turn rotates it. -/
structure Rotates (serve : σ → α) (step : σ → σ) (good : σ → Prop) (plan : σ → List α) :
    Prop where
  kept : ∀ s, good s → good (step s)
  turn : ∀ s, good s → ∃ rest, plan s = serve s :: rest ∧ plan (step s) = rest ++ [serve s]

variable {serve : σ → α} {step : σ → σ} {good : σ → Prop} {plan : σ → List α} {s : σ}

lemma turns_add (m n : ℕ) (s : σ) :
    turns serve step (m + n) s = turns serve step m s ++ turns serve step n (step^[m] s) := by
  induction m generalizing s with
  | zero => simp [turns]
  | succ m ih =>
    rw [Nat.succ_add, Function.iterate_succ_apply]
    exact congrArg (serve s :: ·) (ih (step s))

@[simp] lemma length_turns (k : ℕ) (s : σ) : (turns serve step k s).length = k := by
  induction k generalizing s with
  | zero => rfl
  | succ k ih => simp [turns, ih]

lemma turns_infix {m : ℕ} {l₁ l₂ l₃ : List α} (h : turns serve step m s = l₁ ++ (l₂ ++ l₃)) :
    turns serve step l₂.length (step^[l₁.length] s) = l₂ := by
  have hm : m = l₁.length + (l₂.length + l₃.length) := by
    have hlen := congrArg List.length h
    simpa using hlen
  rw [hm, turns_add, turns_add] at h
  have htail := (List.append_inj h (length_turns _ _)).2
  exact (List.append_inj htail (length_turns _ _)).1

variable (h : Rotates serve step good plan)
include h

lemma Rotates.iterate (hs : good s) (k : ℕ) :
    good (step^[k] s) ∧ (plan (step^[k] s)).Perm (plan s) := by
  induction k generalizing s with
  | zero => exact ⟨hs, .refl _⟩
  | succ k ih =>
    obtain ⟨rest, hplan, hnext⟩ := h.turn s hs
    obtain ⟨hgood, hperm⟩ := ih (h.kept s hs)
    rw [Function.iterate_succ_apply]
    refine ⟨hgood, hperm.trans ?_⟩
    rw [hplan, hnext]
    exact List.perm_append_singleton _ _

lemma Rotates.take (hs : good s) {k : ℕ} (hk : k ≤ (plan s).length) :
    turns serve step k s = (plan s).take k := by
  induction k generalizing s with
  | zero => simp [turns]
  | succ k ih =>
    obtain ⟨rest, hplan, hnext⟩ := h.turn s hs
    rw [hplan, List.length_cons] at hk
    have hrest : k ≤ (plan (step s)).length := by
      rw [hnext, List.length_append]
      omega
    rw [turns, ih (h.kept s hs) hrest, hplan, hnext, List.take_succ_cons,
      List.take_append_of_le_length (by omega)]

/-- A window of turns as long as the plan serves what the plan lists. -/
theorem Rotates.window (hs : good s) (k : ℕ) :
    (turns serve step (plan s).length (step^[k] s)).Perm (plan s) := by
  obtain ⟨hgood, hperm⟩ := h.iterate hs k
  have hlen := hperm.length_eq
  rw [h.take hgood (by omega), ← hlen, List.take_length]
  exact hperm

/-- Turns in a row that leave out an item of the plan leave room for its turns. -/
theorem Rotates.gap [DecidableEq α] (hs : good s) {a : α} (ha : a ∈ plan s) {m : ℕ}
    (hm : a ∉ turns serve step m s) : m + (plan s).count a ≤ (plan s).length := by
  have hall : turns serve step (plan s).length s = plan s := by
    rw [h.take hs (Nat.le_refl _), List.take_length]
  rcases Nat.lt_or_ge m (plan s).length with hlt | hge
  · have hsplit : turns serve step (m + ((plan s).length - m)) s =
        turns serve step m s ++ turns serve step ((plan s).length - m) (step^[m] s) :=
      turns_add m _ s
    rw [Nat.add_sub_cancel' (Nat.le_of_lt hlt), hall] at hsplit
    have hcount : (plan s).count a =
        (turns serve step ((plan s).length - m) (step^[m] s)).count a := by
      rw [hsplit, List.count_append, List.count_eq_zero_of_not_mem hm, Nat.zero_add, ← hsplit]
    have hle := List.count_le_length (a := a)
      (l := turns serve step ((plan s).length - m) (step^[m] s))
    rw [length_turns] at hle
    omega
  · have hsplit : turns serve step ((plan s).length + (m - (plan s).length)) s =
        turns serve step (plan s).length s ++
          turns serve step (m - (plan s).length) (step^[(plan s).length] s) := turns_add _ _ s
    rw [Nat.add_sub_cancel' hge, hall] at hsplit
    rw [hsplit] at hm
    exact absurd (List.mem_append_left _ ha) hm

end Mini2.Rotation
