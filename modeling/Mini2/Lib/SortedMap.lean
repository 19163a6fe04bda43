import Mathlib.Data.List.Nodup
import Mathlib.Data.List.Perm.Basic
import Mathlib.Order.Lattice

/-!
A map as the list of its entries in the order of the keys, filled one entry at a time.
-/

namespace Mini2.SortedMap

variable {K A : Type} [LinearOrder K]

/-- The map with a key set. -/
def insertKey (key : K) (v : A) : List (K × A) → List (K × A)
  | [] => [(key, v)]
  | f :: m =>
    if key < f.1 then (key, v) :: f :: m
    else if key = f.1 then (key, v) :: m
    else f :: insertKey key v m

/-- The keys are distinct, and in order. -/
def Sorted (m : List (K × A)) : Prop := m.Pairwise fun f g => f.1 < g.1

/-- The map that a sequence of entries leaves. -/
def setAll (m fs : List (K × A)) : List (K × A) :=
  fs.foldl (fun m f => insertKey f.1 f.2 m) m

variable {key : K} {v : A} {m fs : List (K × A)}

lemma insertKey_perm (hkey : key ∉ m.map Prod.fst) :
    (insertKey key v m).Perm ((key, v) :: m) := by
  induction m with
  | nil => exact List.Perm.refl _
  | cons f m ih =>
    obtain ⟨hf, hm⟩ := List.ne_and_not_mem_of_not_mem_cons hkey
    rw [insertKey, if_neg hf]
    split
    · exact List.Perm.refl _
    · exact ((ih hm).cons f).trans (List.Perm.swap _ _ _)

lemma insertKey_sorted (hm : Sorted m) (hkey : key ∉ m.map Prod.fst) :
    Sorted (insertKey key v m) := by
  induction m with
  | nil => exact List.pairwise_singleton _ _
  | cons f m ih =>
    obtain ⟨hne, hnot⟩ := List.ne_and_not_mem_of_not_mem_cons hkey
    obtain ⟨hf, hm'⟩ := List.pairwise_cons.mp hm
    rw [insertKey, if_neg hne]
    split
    · rename_i hlt
      refine List.pairwise_cons.mpr ⟨fun g hg => ?_, hm⟩
      rcases List.mem_cons.mp hg with rfl | hg
      · exact hlt
      · exact lt_trans hlt (hf g hg)
    · rename_i hlt
      have hgt : f.1 < key := lt_of_le_of_ne (not_lt.mp hlt) (Ne.symm hne)
      refine List.pairwise_cons.mpr ⟨fun g hg => ?_, ih hm' hnot⟩
      rcases List.mem_cons.mp ((insertKey_perm hnot).mem_iff.mp hg) with rfl | hg
      · exact hgt
      · exact hf g hg

lemma setAll_cons (f : K × A) (m fs : List (K × A)) :
    setAll m (f :: fs) = setAll (insertKey f.1 f.2 m) fs := rfl

lemma setAll_spec (hm : Sorted m) (hkeys : ((m ++ fs).map Prod.fst).Nodup) :
    (setAll m fs).Perm (m ++ fs) ∧ Sorted (setAll m fs) := by
  induction fs generalizing m with
  | nil => simpa [setAll] using hm
  | cons f fs ih =>
    have hkey : f.1 ∉ m.map Prod.fst := by
      rw [List.map_append, List.map_cons] at hkeys
      exact fun hmem => (List.disjoint_of_nodup_append hkeys hmem) (by simp)
    have hmove : (insertKey f.1 f.2 m ++ fs).Perm (m ++ f :: fs) :=
      ((insertKey_perm hkey).append_right fs).trans List.perm_middle.symm
    obtain ⟨hperm, hsorted⟩ := ih (insertKey_sorted hm hkey)
      ((hmove.map Prod.fst).nodup_iff.mpr hkeys)
    exact ⟨hperm.trans hmove, hsorted⟩

lemma Sorted.nodup (hm : Sorted m) : (m.map Prod.fst).Nodup :=
  (List.pairwise_map.mpr hm).imp fun hlt => ne_of_lt hlt

lemma setAll_eq (hperm : m.Perm fs) (hm : Sorted m) : setAll [] fs = m := by
  have hkeys : (([] ++ fs).map Prod.fst).Nodup := (hperm.map Prod.fst).nodup_iff.mp hm.nodup
  obtain ⟨hp, hs⟩ := setAll_spec List.Pairwise.nil hkeys
  exact (hp.trans hperm.symm).eq_of_pairwise
    (fun f g _ _ hfg hgf => absurd hgf (lt_asymm hfg)) hs hm

section Lookup

variable [BEq K] [LawfulBEq K] {x : K}

lemma lookup_cons (f : K × A) (m : List (K × A)) :
    (f :: m).lookup x = if x = f.1 then some f.2 else m.lookup x := by
  rw [List.lookup_cons]
  by_cases h : x = f.1
  · rw [h, beq_self_eq_true, if_pos rfl]
  · rw [beq_false_of_ne h, if_neg h]

omit [LinearOrder K] in
lemma lookup_none (h : x ∉ m.map Prod.fst) : m.lookup x = none := by
  rw [List.lookup_eq_none_iff]
  intro p hp
  have hne : x ≠ p.1 := fun heq => h (List.mem_map.mpr ⟨p, hp, heq.symm⟩)
  simp [hne]

lemma lookup_insertKey :
    (insertKey key v m).lookup x = if x = key then some v else m.lookup x := by
  induction m with
  | nil => rw [insertKey, lookup_cons]
  | cons f m ih =>
    rw [insertKey]
    split
    · rw [lookup_cons]
    · split
      · rename_i heq
        rw [lookup_cons, lookup_cons, ← heq]
        by_cases h : x = key
        · rw [if_pos h, if_pos h]
        · rw [if_neg h, if_neg h, if_neg h]
      · rename_i hne
        rw [lookup_cons, ih, lookup_cons]
        by_cases h : x = f.1
        · rw [if_pos h, if_pos h, if_neg fun h' => hne (h'.symm.trans h)]
        · rw [if_neg h, if_neg h]

/-- In a sequence with distinct keys the entries are found as they stand. -/
lemma lookup_setAll (hkeys : (fs.map Prod.fst).Nodup) :
    (setAll m fs).lookup x = (fs.lookup x).or (m.lookup x) := by
  induction fs generalizing m with
  | nil => rfl
  | cons f fs ih =>
    obtain ⟨hnot, hnodup⟩ := List.nodup_cons.mp hkeys
    rw [setAll_cons, ih hnodup, lookup_insertKey, lookup_cons]
    by_cases h : x = f.1
    · have hnone : fs.lookup x = none := lookup_none (h ▸ hnot)
      rw [if_pos h, if_pos h, hnone]
      rfl
    · rw [if_neg h, if_neg h]

end Lookup

end Mini2.SortedMap
