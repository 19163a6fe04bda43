import Mathlib.Data.Int.ConditionallyCompleteOrder
import Mathlib.Data.Int.Interval
import Mathlib.Algebra.Order.Field.Rat
import Mathlib.Tactic.Positivity
import Mini2.RoutingRange

/-!
Routing by consistent hashing contacts exactly the owners of the buckets in the window,
or every owner. The loop over the buckets may stop early; by then it has hit every owner
of the stripe order, so the buckets it skips add none.
-/

namespace Mini2.RoutingHash

open Mini2.Proto Mini2.Store Mini2.Trunc Mini2.Routing

variable {N : Type}

/-- The owner of a bucket: vnodes are striped over the owners, `vnodesPerOwner` each, and
the last owner takes what is left over. -/
def ownerOf (md : OwnerMetadata N) (h : md.ownersOrder ≠ []) (b : ℤ) : N :=
  md.ownersOrder.get ⟨min (md.ownersOrder.length - 1)
    ((fnv1a32 (UInt32.ofInt b)).toNat % md.totalVnodes.toNat / md.vnodesPerOwner.toNat), by
      have := List.length_pos_iff.mpr h
      omega⟩

variable {md : OwnerMetadata N}

lemma bucketOwner_eq (ht : 0 < md.totalVnodes) (hv : 0 < md.vnodesPerOwner)
    (h : md.ownersOrder ≠ []) (b : ℤ) : bucketOwner md b = some (ownerOf md h b) := by
  obtain ⟨t, ht'⟩ := Int.eq_ofNat_of_zero_le ht.le
  obtain ⟨v, hv'⟩ := Int.eq_ofNat_of_zero_le hv.le
  obtain ⟨k, hk⟩ : ∃ k, k = (fnv1a32 (UInt32.ofInt b)).toNat % t / v := ⟨_, rfl⟩
  have hlen := List.length_pos_iff.mpr h
  have hidx : ((fnv1a32 (UInt32.ofInt b)).toNat : ℤ) % (t : ℤ) / (v : ℤ) = (k : ℤ) := by
    rw [hk]
    push_cast
    rfl
  have hclamp : (if (k : ℤ) ≥ md.ownersOrder.length then (md.ownersOrder.length : ℤ) - 1
      else k).toNat = min (md.ownersOrder.length - 1) k := by
    rcases lt_or_ge k md.ownersOrder.length with hlt | hge
    · rw [if_neg (by omega), Int.toNat_natCast, min_eq_right (by omega)]
    · rw [if_pos (by omega), min_eq_left (by omega)]
      omega
  unfold bucketOwner ownerOf
  simp only [ht', hv', hidx, Int.toNat_natCast, ← hk, List.get_eq_getElem, hclamp]
  exact List.getElem?_eq_getElem (by omega)

variable {pred : RangePredicate}

/-- The first and the last bucket of a window. -/
def firstBucket (md : OwnerMetadata N) (pred : RangePredicate) : ℤ :=
  max 0 (trunc (pred.low * md.hashBucketMultiplier))

def lastBucket (md : OwnerMetadata N) (pred : RangePredicate) : ℤ :=
  trunc (pred.high * md.hashBucketMultiplier)

/-- The bucket of a value of the window lies between the buckets of its ends. -/
lemma bucket_mem (hm : 0 < md.hashBucketMultiplier) {v : ℚ} (h0 : 0 ≤ v)
    (hv : pred.holds v = true) :
    trunc (v * md.hashBucketMultiplier) ∈
      Finset.Icc (firstBucket md pred) (lastBucket md pred) := by
  have hmq : (0 : ℚ) ≤ md.hashBucketMultiplier := by exact_mod_cast hm.le
  have hlow := trunc_mono (mul_le_mul_of_nonneg_right (RangePredicate.low_le hv) hmq)
  have hhigh := trunc_mono (mul_le_mul_of_nonneg_right (RangePredicate.le_high hv) hmq)
  have hnn := trunc_nonneg (mul_nonneg h0 hmq)
  exact Finset.mem_Icc.mpr ⟨max_le hnn hlow, hhigh⟩

variable [DecidableEq N] {query : Query}

/-- What the loop hits: what it starts with, and the owners of the buckets it is given,
whether or not it stops before it has seen them all. -/
lemma mem_hitLoop_bucketOwner (k : ℕ) (b : ℤ) (hit : Finset N)
    (hsub : ∀ o ∈ hit, o ∈ md.ownersOrder) (o : N) :
    o ∈ hitLoop md k b hit ↔
      o ∈ hit ∨ ∃ b', b ≤ b' ∧ b' < b + k ∧ bucketOwner md b' = some o := by
  induction k generalizing b hit with
  | zero =>
    simp only [hitLoop, Nat.cast_zero, add_zero]
    constructor
    · exact Or.inl
    · rintro (ho | ⟨b', h1, h2, -⟩)
      · exact ho
      · omega
  | succ k ih =>
    obtain ⟨hit', hstep, hmem⟩ : ∃ hit', hitLoop md (k + 1) b hit =
        (if hit'.card ≥ md.ownersOrder.length then hit' else hitLoop md k (b + 1) hit') ∧
          ∀ x, x ∈ hit' ↔ x ∈ hit ∨ bucketOwner md b = some x := by
      refine ⟨_, rfl, fun x => ?_⟩
      cases bucketOwner md b with
      | none => simp
      | some z => simp [or_comm, eq_comm]
    have hsub' : ∀ x ∈ hit', x ∈ md.ownersOrder := by
      intro x hx
      rcases (hmem x).mp hx with hx | hx
      · exact hsub x hx
      · exact List.mem_of_getElem? hx
    have hfirst : o ∈ hit' →
        o ∈ hit ∨ ∃ b', b ≤ b' ∧ b' < b + (k + 1 : ℕ) ∧ bucketOwner md b' = some o := by
      intro ho
      exact ((hmem o).mp ho).imp_right fun hb => ⟨b, le_rfl, by omega, hb⟩
    rw [hstep]
    split
    case isTrue hsat =>
      -- saturated: every owner of the stripe order has been hit
      have hall : hit' = md.ownersOrder.toFinset := by
        refine Finset.eq_of_subset_of_card_le (fun x hx => ?_) ?_
        · exact List.mem_toFinset.mpr (hsub' x hx)
        · exact (List.toFinset_card_le _).trans hsat
      refine ⟨hfirst, ?_⟩
      rintro (ho | ⟨b', -, -, hb⟩)
      · exact (hmem o).mpr (.inl ho)
      · rw [hall]
        exact List.mem_toFinset.mpr (List.mem_of_getElem? hb)
    case isFalse =>
      rw [ih (b + 1) _ hsub']
      constructor
      · rintro (ho | ⟨b', h1, h2, hb⟩)
        · exact hfirst ho
        · exact Or.inr ⟨b', by omega, by push_cast; omega, hb⟩
      · rintro (ho | ⟨b', h1, h2, hb⟩)
        · exact Or.inl ((hmem o).mpr (.inl ho))
        · rcases eq_or_lt_of_le h1 with rfl | h1
          · exact Or.inl ((hmem o).mpr (.inr hb))
          · exact Or.inr ⟨b', by omega, by push_cast at h2; omega, hb⟩

lemma mem_hitLoop (ht : 0 < md.totalVnodes) (hv : 0 < md.vnodesPerOwner)
    (h : md.ownersOrder ≠ []) (k : ℕ) (b : ℤ) (hit : Finset N)
    (hsub : ∀ o ∈ hit, o ∈ md.ownersOrder) (o : N) :
    o ∈ hitLoop md k b hit ↔ o ∈ hit ∨ ∃ b', b ≤ b' ∧ b' < b + k ∧ ownerOf md h b' = o := by
  rw [mem_hitLoop_bucketOwner k b hit hsub o]
  simp only [bucketOwner_eq ht hv h, Option.some.injEq]

lemma consistentHashOwners_eq (ht : 0 < md.totalVnodes) (hv : 0 < md.vnodesPerOwner)
    (hm : 0 < md.hashBucketMultiplier) (h : md.ownersOrder ≠ [])
    (hp : findPred query md.hashColumn = some pred) (hle : pred.low ≤ pred.high)
    (allOwners : List N) :
    let hitOwners := allOwners.filter fun o =>
      ∃ b ∈ Finset.Icc (firstBucket md pred) (lastBucket md pred), ownerOf md h b = o
    consistentHashOwners allOwners query md = allOwners ∨
      (consistentHashOwners allOwners query md = hitOwners ∧ hitOwners ≠ []) := by
  intro hitOwners
  have hmq : (0 : ℚ) < md.hashBucketMultiplier := by exact_mod_cast hm
  have hmono : trunc (pred.low * md.hashBucketMultiplier)
      ≤ trunc (pred.high * md.hashBucketMultiplier) :=
    trunc_mono (mul_le_mul_of_nonneg_right hle hmq.le)
  have hguard : (md.vnodesPerOwner == 0 || md.totalVnodes == 0 || md.ownersOrder.isEmpty)
      = false := by
    simp [hv.ne', ht.ne', h]
  have hclamp : (if trunc (pred.low * md.hashBucketMultiplier) < 0 then 0
      else trunc (pred.low * md.hashBucketMultiplier)) = firstBucket md pred := by
    unfold firstBucket
    split <;> omega
  unfold consistentHashOwners
  rw [hguard]
  simp only [Bool.false_eq_true, if_false, hp, gt_iff_lt, if_neg (not_lt.mpr hmono), hclamp]
  rw [show trunc (pred.high * md.hashBucketMultiplier) = lastBucket md pred from rfl]
  split
  · exact Or.inl rfl
  · have hmem : ∀ o, (o ∈ hitLoop md (lastBucket md pred - firstBucket md pred + 1).toNat
        (firstBucket md pred) ∅) ↔
        ∃ b ∈ Finset.Icc (firstBucket md pred) (lastBucket md pred), ownerOf md h b = o := by
      intro o
      rw [mem_hitLoop ht hv h _ _ ∅ (by simp) o]
      simp only [Finset.notMem_empty, false_or, Finset.mem_Icc]
      constructor
      · rintro ⟨b, h1, h2, hb⟩
        exact ⟨b, ⟨h1, by omega⟩, hb⟩
      · rintro ⟨b, ⟨h1, h2⟩, hb⟩
        exact ⟨b, h1, by omega, hb⟩
    have hout : (allOwners.filter fun o => o ∈ hitLoop md
        (lastBucket md pred - firstBucket md pred + 1).toNat (firstBucket md pred) ∅)
        = hitOwners :=
      List.filter_congr fun o _ => decide_eq_decide.mpr (hmem o)
    rw [hout]
    split
    · exact Or.inl rfl
    · next hne => exact Or.inr ⟨rfl, by simpa using hne⟩

/-- **Routing by consistent hashing is sound and exact.** It keeps all owners, or exactly
the owners of the buckets in the window; so the owner of the bucket of a value in the
window is always contacted. -/
theorem hashRouting_exact (hs : md.scheme = "consistent_hash") (ht : 0 < md.totalVnodes)
    (hv : 0 < md.vnodesPerOwner) (hm : 0 < md.hashBucketMultiplier)
    (h : md.ownersOrder ≠ []) (hp : findPred query md.hashColumn = some pred)
    (hle : pred.low ≤ pred.high) (allOwners : List N) :
    (eligibleOwners allOwners query md = allOwners ∨
      eligibleOwners allOwners query md = allOwners.filter fun o =>
        ∃ b ∈ Finset.Icc (firstBucket md pred) (lastBucket md pred), ownerOf md h b = o) ∧
    ∀ v, 0 ≤ v → pred.holds v = true →
      ownerOf md h (trunc (v * md.hashBucketMultiplier)) ∈ allOwners →
      ownerOf md h (trunc (v * md.hashBucketMultiplier)) ∈
        eligibleOwners allOwners query md := by
  have hempty : md.empty = false := by
    simp [OwnerMetadata.empty, hs, hv.ne']
  have hpreds : query.predicates ≠ [] := by
    rintro hnil
    simp [findPred, hnil] at hp
  have heq : eligibleOwners allOwners query md = consistentHashOwners allOwners query md := by
    simp [eligibleOwners, hempty, hs, hpreds]
  have hcase := consistentHashOwners_eq ht hv hm h hp hle allOwners
  rw [heq]
  refine ⟨hcase.imp_right And.left, fun v h0 hhold hmem => ?_⟩
  rcases hcase with hall | ⟨hhit, -⟩
  · rw [hall]
    exact hmem
  · rw [hhit]
    exact List.mem_filter.mpr ⟨hmem, decide_eq_true ⟨_, bucket_mem hm h0 hhold, rfl⟩⟩

def ring : OwnerMetadata (Fin 3) where
  scheme := "consistent_hash"
  hashBucketMultiplier := 10
  vnodesPerOwner := 2
  totalVnodes := 6
  hashColumn := "trip_distance"
  ownersOrder := [0, 1, 2]

theorem hashRouting_exact_ring :
    ownerOf ring (by decide) (trunc (3 / 2 * 10)) ∈
      eligibleOwners [0, 1, 2] ⟨[⟨"trip_distance", 1, 2, true⟩]⟩ ring :=
  (hashRouting_exact rfl (by decide) (by decide) (by decide) (by decide)
    (show findPred _ ring.hashColumn = some ⟨"trip_distance", 1, 2, true⟩ from rfl)
    (by decide +kernel) [0, 1, 2]).2 (3 / 2)
    (by decide +kernel) (by decide +kernel) (by
      have hm : ∀ i : Fin 3, i ∈ ([0, 1, 2] : List (Fin 3)) := by decide
      exact hm _)

end Mini2.RoutingHash
