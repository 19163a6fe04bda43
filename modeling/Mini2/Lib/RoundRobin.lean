import Mathlib.Algebra.Order.BigOperators.Group.List
import Mathlib.Algebra.Order.Group.Nat
import Mathlib.Algebra.Ring.Nat
import Mathlib.Data.Int.Notation
import Mathlib.Data.List.Perm.Basic
import Mathlib.Logic.Function.Basic

/-!
Draining several queues round robin: each round takes at most one item off every queue, and
the rounds end when enough items have been taken or a round takes none.
-/

namespace Mini2.RoundRobin

variable {σ α : Type*} [DecidableEq σ]

/-! ### Items by source -/

/-- The items of one source, in order. -/
def itemsOf (log : List (σ × α)) (o : σ) : List α :=
  (log.filter fun p => p.1 = o).map Prod.snd

@[simp] lemma itemsOf_nil (o : σ) : itemsOf ([] : List (σ × α)) o = [] := rfl

@[simp] lemma itemsOf_append (l l' : List (σ × α)) (o : σ) :
    itemsOf (l ++ l') o = itemsOf l o ++ itemsOf l' o := by
  simp [itemsOf]

lemma itemsOf_self (o : σ) (a : α) : itemsOf [(o, a)] o = [a] := by simp [itemsOf]

lemma itemsOf_ne {o o' : σ} (h : o' ≠ o) (a : α) : itemsOf [(o', a)] o = [] := by
  simp [itemsOf, h]

/-- Up to order, the items are those of the sources. -/
theorem perm_flatMap_itemsOf {os : List σ} (hos : os.Nodup) {log : List (σ × α)}
    (h : ∀ p ∈ log, p.1 ∈ os) : (log.map Prod.snd).Perm (os.flatMap (itemsOf log)) := by
  induction os generalizing log with
  | nil =>
    cases log with
    | nil => exact .nil
    | cons p log => exact absurd (h p List.mem_cons_self) List.not_mem_nil
  | cons o os ih =>
    obtain ⟨ho, hos⟩ := List.nodup_cons.mp hos
    have hmem : ∀ p ∈ log.filter (fun p => ¬ p.1 = o), p.1 ∈ os := by
      intro p hp
      obtain ⟨hp, hne⟩ := List.mem_filter.mp hp
      exact (List.mem_cons.mp (h p hp)).resolve_left (by simpa using hne)
    have hrest := ih hos hmem
    have heq : os.flatMap (itemsOf (log.filter fun p => ¬ p.1 = o)) = os.flatMap (itemsOf log) := by
      refine List.flatMap_congr fun o' ho' => ?_
      have hne : o' ≠ o := fun h => ho (h ▸ ho')
      unfold itemsOf
      rw [List.filter_filter]
      refine congrArg (List.map Prod.snd) (List.filter_congr fun p _ => ?_)
      by_cases hp : p.1 = o'
      · simp [hp, hne]
      · simp [hp]
    have hsplit : (log.map Prod.snd).Perm
        (itemsOf log o ++ (log.filter fun p => ¬ p.1 = o).map Prod.snd) := by
      unfold itemsOf
      rw [← List.map_append]
      refine List.Perm.map _ ?_
      simpa using (List.filter_append_perm (fun p : σ × α => p.1 = o) log).symm
    rw [List.flatMap_cons, ← heq]
    exact hsplit.trans (hrest.append_left _)

/-! ### The drain -/

structure Drain (σ α : Type*) where
  taken : List (σ × α)
  queue : σ → List α

def visit (max : ℤ) (d : Drain σ α) (o : σ) : Drain σ α :=
  if (d.taken.length : ℤ) < max then
    match d.queue o with
    | [] => d
    | a :: rest => ⟨d.taken ++ [(o, a)], Function.update d.queue o rest⟩
  else d

def round (max : ℤ) (sources : List σ) (d : Drain σ α) : Drain σ α :=
  sources.foldl (visit max) d

/-- At most `k` rounds. -/
def rounds (max : ℤ) (sources : List σ) : ℕ → Drain σ α → Drain σ α
  | 0, d => d
  | k + 1, d =>
    if (d.taken.length : ℤ) < max then
      let d' := round max sources d
      if d'.taken.length = d.taken.length then d' else rounds max sources k d'
    else d

/-- Every round but the last takes an item, so `max` rounds are enough. -/
def drain (max : ℤ) (sources : List σ) (queue : σ → List α) : Drain σ α :=
  rounds max sources max.toNat ⟨[], queue⟩

/-- Nothing is lost, doubled or reordered between the two. -/
def Conserves (d d' : Drain σ α) : Prop :=
  ∀ o, itemsOf d'.taken o ++ d'.queue o = itemsOf d.taken o ++ d.queue o

lemma visit_conserves (max : ℤ) (d : Drain σ α) (o : σ) : Conserves d (visit max d o) := by
  intro o'
  unfold visit
  split
  · split
    · rfl
    · next a rest hq =>
      simp only [itemsOf_append]
      by_cases h : o' = o
      · subst h
        simp [itemsOf_self, hq]
      · simp [itemsOf_ne (Ne.symm h), Function.update_of_ne h]
  · rfl

lemma round_conserves (max : ℤ) (sources : List σ) (d : Drain σ α) :
    Conserves d (round max sources d) := by
  induction sources generalizing d with
  | nil => exact fun _ => rfl
  | cons o os ih => exact fun o' => (ih (visit max d o) o').trans (visit_conserves max d o o')

lemma rounds_conserves (max : ℤ) (sources : List σ) (k : ℕ) (d : Drain σ α) :
    Conserves d (rounds max sources k d) := by
  induction k generalizing d with
  | zero => exact fun _ => rfl
  | succ k ih =>
    unfold rounds
    split
    · simp only
      split
      · exact round_conserves max sources d
      · exact fun o => (ih _ o).trans (round_conserves max sources d o)
    · exact fun _ => rfl

theorem drain_conserves (max : ℤ) (sources : List σ) (queue : σ → List α) (o : σ) :
    itemsOf (drain max sources queue).taken o ++ (drain max sources queue).queue o = queue o := by
  have := rounds_conserves max sources max.toNat ⟨[], queue⟩ o
  simpa [drain] using this

/-! ### Progress -/

lemma visit_length (max : ℤ) (d : Drain σ α) (o : σ) :
    d.taken.length ≤ (visit max d o).taken.length := by
  unfold visit
  split
  · split
    · exact Nat.le_refl _
    · simp
  · exact Nat.le_refl _

lemma round_length (max : ℤ) (sources : List σ) (d : Drain σ α) :
    d.taken.length ≤ (round max sources d).taken.length := by
  induction sources generalizing d with
  | nil => exact Nat.le_refl _
  | cons o os ih => exact Nat.le_trans (visit_length max d o) (ih (visit max d o))

lemma rounds_length (max : ℤ) (sources : List σ) (k : ℕ) (d : Drain σ α) :
    d.taken.length ≤ (rounds max sources k d).taken.length := by
  induction k generalizing d with
  | zero => exact Nat.le_refl _
  | succ k ih =>
    unfold rounds
    split
    · simp only
      split
      · exact round_length max sources d
      · exact Nat.le_trans (round_length max sources d) (ih _)
    · exact Nat.le_refl _

/-- A round that may take something takes something, if there is something. -/
lemma round_pos {max : ℤ} {sources : List σ} {d : Drain σ α} {o : σ} (ho : o ∈ sources)
    (hq : d.queue o ≠ []) (hmax : (d.taken.length : ℤ) < max) :
    d.taken.length < (round max sources d).taken.length := by
  induction sources generalizing d with
  | nil => cases ho
  | cons o' os ih =>
    have hrest := round_length max os (visit max d o')
    show d.taken.length < (round max os (visit max d o')).taken.length
    cases hq' : d.queue o' with
    | cons a rest =>
      have hone : (visit max d o').taken.length = d.taken.length + 1 := by
        simp [visit, hmax, hq']
      omega
    | nil =>
      have hsame : visit max d o' = d := by simp [visit, hq']
      rw [hsame]
      refine ih ((List.mem_cons.mp ho).resolve_left ?_) hq hmax
      rintro rfl
      exact hq hq'

/-- **A drain takes something**, if there is something and it may take it. -/
theorem drain_pos {max : ℤ} (hmax : 1 ≤ max) {sources : List σ} {queue : σ → List α} {o : σ}
    (ho : o ∈ sources) (hq : queue o ≠ []) : 0 < (drain max sources queue).taken.length := by
  have hround : 0 < (round max sources ⟨[], queue⟩).taken.length :=
    round_pos ho hq (d := ⟨[], queue⟩) (by simp; omega)
  obtain ⟨k, hk⟩ := Nat.exists_eq_succ_of_ne_zero (by omega : max.toNat ≠ 0)
  unfold drain
  rw [hk, Nat.succ_eq_add_one, rounds, if_pos (by simp; omega)]
  simp only
  split
  · exact hround
  · exact Nat.lt_of_lt_of_le hround (rounds_length max sources k _)

/-! ### The end of a drain -/

lemma visit_full {max : ℤ} {d : Drain σ α} (h : max ≤ d.taken.length) (o : σ) :
    visit max d o = d := by
  unfold visit
  rw [if_neg (by omega)]

lemma round_full {max : ℤ} {d : Drain σ α} (h : max ≤ d.taken.length) (sources : List σ) :
    round max sources d = d := by
  induction sources with
  | nil => rfl
  | cons o os ih =>
    show round max os (visit max d o) = d
    rw [visit_full h, ih]

lemma rounds_full {max : ℤ} {d : Drain σ α} (h : max ≤ d.taken.length) (sources : List σ) (k : ℕ) :
    rounds max sources k d = d := by
  cases k with
  | zero => rfl
  | succ k =>
    unfold rounds
    rw [if_neg (by omega)]

lemma round_empty {max : ℤ} {sources : List σ} {d : Drain σ α}
    (h : ∀ o ∈ sources, d.queue o = []) : round max sources d = d := by
  induction sources with
  | nil => rfl
  | cons o os ih =>
    have hvisit : visit max d o = d := by
      unfold visit
      simp [h o List.mem_cons_self]
    show round max os (visit max d o) = d
    rw [hvisit, ih fun o' ho' => h o' (List.mem_cons_of_mem _ ho')]

lemma rounds_end {max : ℤ} {sources : List σ} {k : ℕ} {d : Drain σ α}
    (hk : max ≤ k + d.taken.length) : max ≤ (rounds max sources k d).taken.length ∨
      ∀ o ∈ sources, (rounds max sources k d).queue o = [] := by
  induction k generalizing d with
  | zero => exact .inl (by simpa [rounds] using hk)
  | succ k ih =>
    unfold rounds
    by_cases hmax : (d.taken.length : ℤ) < max
    · rw [if_pos hmax]
      simp only
      by_cases hsame : (round max sources d).taken.length = d.taken.length
      · rw [if_pos hsame]
        -- a round that takes nothing has found nothing
        have hempty : ∀ o ∈ sources, d.queue o = [] := by
          intro o ho
          by_contra hq
          have := round_pos ho hq hmax
          omega
        rw [round_empty hempty]
        exact .inr hempty
      · rw [if_neg hsame]
        have hle := round_length max sources d
        exact ih (by push_cast at hk; omega)
    · rw [if_neg hmax]
      exact .inl (by omega)

lemma visit_le {max : ℤ} {d : Drain σ α} (h : d.taken.length ≤ max.toNat) (o : σ) :
    (visit max d o).taken.length ≤ max.toNat := by
  unfold visit
  split
  · split
    · exact h
    · rw [List.length_append, List.length_singleton]
      omega
  · exact h

lemma round_le {max : ℤ} {d : Drain σ α} (h : d.taken.length ≤ max.toNat) (sources : List σ) :
    (round max sources d).taken.length ≤ max.toNat := by
  induction sources generalizing d with
  | nil => exact h
  | cons o os ih => exact ih (visit_le h o)

lemma rounds_le {max : ℤ} {d : Drain σ α} (h : d.taken.length ≤ max.toNat) (sources : List σ)
    (k : ℕ) : (rounds max sources k d).taken.length ≤ max.toNat := by
  induction k generalizing d with
  | zero => exact h
  | succ k ih =>
    unfold rounds
    split
    · simp only
      split
      · exact round_le h sources
      · exact ih (round_le h sources)
    · exact h

/-- What is taken is taken off the sources. -/
def Within (sources : List σ) (d : Drain σ α) : Prop := ∀ p ∈ d.taken, p.1 ∈ sources

lemma visit_within {max : ℤ} {sources : List σ} {d : Drain σ α} {o : σ} (h : Within sources d)
    (ho : o ∈ sources) : Within sources (visit max d o) := by
  unfold visit
  split
  · split
    · exact h
    · intro p hp
      rcases List.mem_append.mp hp with hp | hp
      · exact h p hp
      · rw [List.mem_singleton.mp hp]
        exact ho
  · exact h

lemma round_within {max : ℤ} {sources : List σ} {d : Drain σ α} (h : Within sources d) :
    Within sources (round max sources d) := by
  have key : ∀ (os : List σ) (d : Drain σ α), (∀ o ∈ os, o ∈ sources) → Within sources d →
      Within sources (os.foldl (visit max) d) := by
    intro os
    induction os with
    | nil => exact fun d _ h => h
    | cons o os ih =>
      intro d hos h
      exact ih _ (fun o' ho' => hos o' (List.mem_cons_of_mem _ ho'))
        (visit_within h (hos o List.mem_cons_self))
  exact key sources d (fun _ ho => ho) h

lemma rounds_within {max : ℤ} {sources : List σ} {k : ℕ} {d : Drain σ α} (h : Within sources d) :
    Within sources (rounds max sources k d) := by
  induction k generalizing d with
  | zero => exact h
  | succ k ih =>
    unfold rounds
    split
    · simp only
      split
      · exact round_within h
      · exact ih (round_within h)
    · exact h

lemma drain_within (max : ℤ) (sources : List σ) (queue : σ → List α) :
    Within sources (drain max sources queue) :=
  rounds_within fun _ hp => absurd hp List.not_mem_nil

lemma itemsOf_eq_nil {log : List (σ × α)} {o : σ} (h : ∀ p ∈ log, p.1 ≠ o) :
    itemsOf log o = [] := by
  unfold itemsOf
  rw [List.filter_eq_nil_iff.mpr fun p hp => by simpa using h p hp]
  rfl

/-- A queue that is no source is left alone. -/
theorem drain_other {max : ℤ} {sources : List σ} {queue : σ → List α} {o : σ}
    (ho : o ∉ sources) : (drain max sources queue).queue o = queue o := by
  have hnil : itemsOf (drain max sources queue).taken o = [] :=
    itemsOf_eq_nil fun p hp h => ho (h ▸ drain_within max sources queue p hp)
  have hcons := drain_conserves max sources queue o
  rwa [hnil, List.nil_append] at hcons

/-- **A drain takes all there is, up to its limit.** -/
theorem drain_length {max : ℤ} {sources : List σ} (hos : sources.Nodup) (queue : σ → List α) :
    (drain max sources queue).taken.length =
      min max.toNat (sources.map fun o => (queue o).length).sum := by
  have hperm := (perm_flatMap_itemsOf hos (drain_within max sources queue)).length_eq
  rw [List.length_map, List.length_flatMap] at hperm
  have hsplit : ∀ o, (itemsOf (drain max sources queue).taken o).length +
      ((drain max sources queue).queue o).length = (queue o).length := by
    intro o
    rw [← List.length_append, drain_conserves]
  have hsum : (sources.map fun o => (itemsOf (drain max sources queue).taken o).length).sum ≤
      (sources.map fun o => (queue o).length).sum :=
    List.sum_le_sum fun o _ => by have := hsplit o; omega
  have hle : (drain max sources queue).taken.length ≤ max.toNat :=
    rounds_le (Nat.zero_le _) sources _
  have hend : max ≤ (drain max sources queue).taken.length ∨
      ∀ o ∈ sources, (drain max sources queue).queue o = [] := rounds_end (by simp)
  rcases hend with hfull | hempty
  · have hge : max.toNat ≤ (drain max sources queue).taken.length := by
      have hfull' : max ≤ (drain max sources queue).taken.length := hfull
      omega
    omega
  · have hall : (sources.map fun o => (itemsOf (drain max sources queue).taken o).length) =
        sources.map fun o => (queue o).length := by
      refine List.map_congr_left fun o ho => ?_
      have h0 : (drain max sources queue).queue o = [] := hempty o ho
      have h1 := hsplit o
      rw [h0] at h1
      exact h1
    rw [hall] at hperm
    omega

/-! ### Shares -/

/-- How many items a queue has given. -/
def given (d : Drain σ α) (o : σ) : ℕ := (itemsOf d.taken o).length

/-- The sources before the place of the drain have given an item more than the others, unless
they ran out. -/
structure Shared (queue : σ → List α) (d : Drain σ α) (r : ℕ) (pre post : List σ) : Prop where
  pre : ∀ o ∈ pre, given d o = min (queue o).length (r + 1)
  post : ∀ o ∈ post, given d o = min (queue o).length r

variable {max : ℤ} {queue : σ → List α} {d : Drain σ α} {r : ℕ} {pre post sources : List σ}

lemma given_add (h : Conserves ⟨[], queue⟩ d) (o : σ) :
    given d o + (d.queue o).length = (queue o).length := by
  have hlen := congrArg List.length (h o)
  rwa [List.length_append, itemsOf_nil, List.nil_append] at hlen

lemma visit_shared (h : Shared queue d r pre (o :: post)) (hc : Conserves ⟨[], queue⟩ d)
    (hpre : o ∉ pre) (hpost : o ∉ post) (hmax : (d.taken.length : ℤ) < max) :
    Shared queue (visit max d o) r (pre ++ [o]) post := by
  have hother : ∀ o', o' ≠ o → given (visit max d o) o' = given d o' := by
    intro o' hne
    unfold given visit
    rw [if_pos hmax]
    split
    · rfl
    · rw [itemsOf_append, itemsOf_ne hne.symm, List.append_nil]
  have hself : given (visit max d o) o = min (queue o).length (r + 1) := by
    have hgiven := h.post o List.mem_cons_self
    have hadd := given_add hc o
    cases hq : d.queue o with
    | nil =>
      have hsame : visit max d o = d := by
        unfold visit
        rw [if_pos hmax, hq]
      rw [hsame, hgiven]
      rw [hq, List.length_nil] at hadd
      omega
    | cons a rest =>
      have hone : given (visit max d o) o = given d o + 1 := by
        unfold given visit
        rw [if_pos hmax, hq]
        simp [itemsOf_self]
      rw [hq, List.length_cons] at hadd
      omega
  constructor
  · intro o' ho'
    rcases List.mem_append.mp ho' with ho' | ho'
    · rw [hother o' fun heq => hpre (heq ▸ ho')]
      exact h.pre o' ho'
    · rw [List.mem_singleton.mp ho']
      exact hself
  · intro o' ho'
    rw [hother o' fun heq => hpost (heq ▸ ho')]
    exact h.post o' (List.mem_cons_of_mem _ ho')

lemma foldl_shared (hnd : (pre ++ post).Nodup) (h : Shared queue d r pre post)
    (hc : Conserves ⟨[], queue⟩ d) : ∃ pre' post', pre' ++ post' = pre ++ post ∧
      Shared queue (round max post d) r pre' post' ∧
      (post' = [] ∨ max ≤ (round max post d).taken.length) := by
  induction post generalizing pre d with
  | nil => exact ⟨pre, [], rfl, h, .inl rfl⟩
  | cons o post ih =>
    by_cases hmax : (d.taken.length : ℤ) < max
    · have hnd' : (pre ++ [o] ++ post).Nodup := by
        rwa [List.append_assoc, List.singleton_append]
      obtain ⟨-, hcons, hdisj⟩ := List.nodup_append.mp hnd
      have hpre : o ∉ pre := fun hmem => hdisj o hmem o List.mem_cons_self rfl
      have hvisit := visit_shared h hc hpre (List.nodup_cons.mp hcons).1 hmax
      have hcv : Conserves ⟨[], queue⟩ (visit max d o) :=
        fun o' => (visit_conserves max d o o').trans (hc o')
      obtain ⟨pre', post', heq, hshared, hend⟩ := ih hnd' hvisit hcv
      exact ⟨pre', post', by simpa using heq, hshared, hend⟩
    · rw [round_full (by omega)]
      exact ⟨pre, o :: post, rfl, h, .inr (by omega)⟩

lemma rounds_shared (hnd : sources.Nodup) {k : ℕ} (h : Shared queue d r [] sources)
    (hc : Conserves ⟨[], queue⟩ d) : ∃ r' pre post, pre ++ post = sources ∧
      Shared queue (rounds max sources k d) r' pre post := by
  induction k generalizing d r with
  | zero => exact ⟨r, [], sources, rfl, h⟩
  | succ k ih =>
    unfold rounds
    split
    · obtain ⟨pre, post, heq, hshared, hend⟩ : ∃ pre post, pre ++ post = [] ++ sources ∧
          Shared queue (round max sources d) r pre post ∧
          (post = [] ∨ max ≤ (round max sources d).taken.length) :=
        foldl_shared (by simpa using hnd) h hc
      simp only
      split
      · exact ⟨r, pre, post, heq, hshared⟩
      · rcases hend with rfl | hfull
        · -- the round has gone through all sources: the next share begins
          obtain rfl : pre = sources := by simpa using heq
          have hcr : Conserves ⟨[], queue⟩ (round max pre d) :=
            fun o' => (round_conserves max pre d o').trans (hc o')
          exact ih ⟨fun _ ho => absurd ho List.not_mem_nil, hshared.pre⟩ hcr
        · rw [rounds_full hfull]
          exact ⟨r, pre, post, heq, hshared⟩
    · exact ⟨r, [], sources, rfl, h⟩

/-- **A drain is fair**: up to their lengths, the queues give the same number of items, but for
one item more from those the last round got to. -/
theorem drain_shared (hnd : sources.Nodup) (max : ℤ) (queue : σ → List α) :
    ∃ r pre post, pre ++ post = sources ∧
      Shared queue (drain max sources queue) r pre post :=
  rounds_shared (r := 0) hnd
    ⟨fun _ ho => absurd ho List.not_mem_nil, fun o _ => by simp [given]⟩ fun _ => rfl

end Mini2.RoundRobin
