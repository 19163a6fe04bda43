import Mini2.JsonText
import Mini2.Manifest

/-!
Routing with every conversion and operation checked: there is no result where one of them leaves
the range of its type. The rest is the arithmetic of the language: the casts to `uint32_t` are
modular, and division is towards zero. The product of a bound and the multiplier is a parameter:
`mul` gives the double, if there is a finite one.
-/

namespace Mini2.Routing

open Mini2.Proto Mini2.Trunc Mini2.Machine

variable {N : Type} [DecidableEq N]

def puLocationChecked (allOwners : List N) (query : Query) (md : OwnerMetadata N) :
    Option (List N) :=
  match findPred query "pu_location_id" with
  | none => some allOwners
  | some pred => do
    let low ← castChecked 32 pred.low
    let high ← castChecked 32 pred.high
    return allOwners.filter fun o =>
      match md.zones.lookup o with
      | none => true
      | some zs => zs.any fun z => z ≥ low && z ≤ high

def bucketOwnerChecked (md : OwnerMetadata N) (nOwners b : ℤ) : Option N := do
  guard (UInt32.ofInt md.totalVnodes ≠ 0)
  let v := fnv1a32 (UInt32.ofInt b) % UInt32.ofInt md.totalVnodes
  let v ← checked 32 v.toNat
  guard (md.vnodesPerOwner ≠ 0)
  let ownerIdx ← checked 32 (v.tdiv md.vnodesPerOwner)
  let ownerIdx := if ownerIdx ≥ nOwners then nOwners - 1 else ownerIdx
  guard (0 ≤ ownerIdx)
  md.ownersOrder[ownerIdx.toNat]?

/-- The loop over the buckets from `b`, `k` of them at most. -/
def hitLoopChecked (md : OwnerMetadata N) (nOwners : ℤ) :
    ℕ → ℤ → Finset N → Option (Finset N)
  | 0, _, hit => some hit
  | k + 1, b, hit =>
    (bucketOwnerChecked md nOwners b).bind fun o =>
      (checked 32 (insert o hit).card).bind fun size =>
        if size ≥ nOwners then some (insert o hit)
        else (checked 64 (b + 1)).bind fun b => hitLoopChecked md nOwners k b (insert o hit)

def bucketChecked (mul : ℚ → ℤ → Option ℚ) (md : OwnerMetadata N) (x : ℚ) : Option ℤ :=
  (mul x md.hashBucketMultiplier).bind (castChecked 64)

/-- The owners of the buckets from `bLo` to `bHi`. -/
def windowOwnersChecked (allOwners : List N) (md : OwnerMetadata N) (bLo bHi : ℤ) :
    Option (List N) :=
  (checked 64 (bHi - bLo)).bind fun distance =>
    (checked 64 (distance + 1)).bind fun span =>
      (checked 64 (md.totalVnodes * 4)).bind fun cap =>
        if span > cap then some allOwners
        else
          (checked 32 md.ownersOrder.length).bind fun nOwners =>
            (hitLoopChecked md nOwners span.toNat bLo ∅).map fun hit =>
              let out := allOwners.filter fun o => o ∈ hit
              if out.isEmpty then allOwners else out

def consistentHashChecked (mul : ℚ → ℤ → Option ℚ) (allOwners : List N) (query : Query)
    (md : OwnerMetadata N) : Option (List N) :=
  if md.vnodesPerOwner == 0 || md.totalVnodes == 0 || md.ownersOrder.isEmpty then
    some allOwners
  else
    match findPred query md.hashColumn with
    | none => some allOwners
    | some pred =>
      (bucketChecked mul md pred.low).bind fun bLo =>
        (bucketChecked mul md pred.high).bind fun bHi =>
          let (bLo, bHi) := if bLo > bHi then (bHi, bLo) else (bLo, bHi)
          let bLo := if bLo < 0 then 0 else bLo
          windowOwnersChecked allOwners md bLo bHi

/-- The month of a time, whose year `gmtime_r` counts from 1900 in an `int`. -/
def monthChecked (epoch : ℤ) : Option ℤ :=
  (checked 32 (Calendar.yearOf (epoch / 86400) - 1900)).map fun _ => monthOfEpoch epoch

def pickupDatetimeChecked (allOwners : List N) (query : Query) (md : OwnerMetadata N) :
    Option (List N) :=
  match findPred query "pickup_datetime" with
  | none => some allOwners
  | some pred => do
    let mLo ← (castChecked 64 pred.low).bind monthChecked
    let mHi ← (castChecked 64 pred.high).bind monthChecked
    let (mLo, mHi) := if mLo > mHi then (mHi, mLo) else (mLo, mHi)
    return allOwners.filter fun o =>
      match md.months.lookup o with
      | none => true
      | some ms => ms.any fun m => m ≥ mLo && m ≤ mHi

/-- `eligible_owners`; the branch for `trip_distance` only compares doubles. -/
def eligibleOwnersChecked (mul : ℚ → ℤ → Option ℚ) (allOwners : List N) (query : Query)
    (md : OwnerMetadata N) : Option (List N) :=
  if md.empty || query.predicates.length == 0 then some allOwners
  else if md.scheme == "trip_distance" then some (tripDistanceOwners allOwners query md)
  else if md.scheme == "pu_location_id" then puLocationChecked allOwners query md
  else if md.scheme == "consistent_hash" then consistentHashChecked mul allOwners query md
  else if md.scheme == "pickup_datetime" then pickupDatetimeChecked allOwners query md
  else some allOwners

/-! ### The condition -/

/-- The buckets of a window, put in order and cut off at zero. -/
def window (x y : ℚ) : ℤ × ℤ := (max 0 (min (trunc x) (trunc y)), max (trunc x) (trunc y))

/-- The owner index that the code computes for a bucket is not negative. -/
def IndexNonneg (md : OwnerMetadata N) (b : ℤ) : Prop :=
  md.vnodesPerOwner < 0 →
    ((fnv1a32 (UInt32.ofInt b)).toNat : ℤ) % md.totalVnodes < -md.vnodesPerOwner

/-- The products are doubles in the range of a bucket; and if the window is not wider than the
cap, the owners can be counted and none of the buckets looked at gets a negative index. With one
owner only the first is looked at. -/
def HashInRange (mul : ℚ → ℤ → Option ℚ) (md : OwnerMetadata N) (pred : RangePredicate) : Prop :=
  ∃ x y, mul pred.low md.hashBucketMultiplier = some x ∧
    mul pred.high md.hashBucketMultiplier = some y ∧ Fits 64 (trunc x) ∧ Fits 64 (trunc y) ∧
    ((window x y).2 - (window x y).1 + 1 ≤ md.totalVnodes * 4 →
      Fits 32 md.ownersOrder.length ∧
      ∀ b, (window x y).1 ≤ b → b ≤ (window x y).2 →
        (md.ownersOrder.length = 1 → b = (window x y).1) → IndexNonneg md b)

/-- A bound whose time and month can be represented. -/
def TimeInRange (x : ℚ) : Prop :=
  Fits 64 (trunc x) ∧ Fits 32 (Calendar.yearOf (trunc x / 86400) - 1900)

/-- Where routing stays in range, by the branch that a query takes. -/
structure InRange (mul : ℚ → ℤ → Option ℚ) (query : Query) (md : OwnerMetadata N) : Prop where
  zones : md.scheme = "pu_location_id" → ∀ pred, findPred query "pu_location_id" = some pred →
    Fits 32 (trunc pred.low) ∧ Fits 32 (trunc pred.high)
  hash : md.scheme = "consistent_hash" → md.vnodesPerOwner ≠ 0 → md.totalVnodes ≠ 0 →
    md.ownersOrder ≠ [] → ∀ pred, findPred query md.hashColumn = some pred →
    HashInRange mul md pred
  months : md.scheme = "pickup_datetime" → ∀ pred,
    findPred query "pickup_datetime" = some pred → TimeInRange pred.low ∧ TimeInRange pred.high

/-! ### One bucket -/

variable {N : Type} {mul : ℚ → ℤ → Option ℚ} {md : OwnerMetadata N} {allOwners : List N}
  {query : Query}

lemma toNat_ofInt_total (ht : 0 < md.totalVnodes) (hfit : Fits 32 md.totalVnodes) :
    (UInt32.ofInt md.totalVnodes).toNat = md.totalVnodes.toNat := by
  obtain ⟨-, hlt⟩ := hfit
  have hmod : md.totalVnodes % 2 ^ 32 = md.totalVnodes := by omega
  have hsize : md.totalVnodes.toNat < UInt32.size := by
    rw [UInt32.size]
    omega
  rw [UInt32.ofInt, hmod, UInt32.toNat_ofNat_of_lt' hsize]

lemma vnode_eq (ht : 0 < md.totalVnodes) (hfit : Fits 32 md.totalVnodes) (b : ℤ) :
    (((fnv1a32 (UInt32.ofInt b) % UInt32.ofInt md.totalVnodes).toNat : ℕ) : ℤ) =
      ((fnv1a32 (UInt32.ofInt b)).toNat : ℤ) % md.totalVnodes := by
  rw [UInt32.toNat_mod, toNat_ofInt_total ht hfit, Int.natCast_mod, Int.toNat_of_nonneg ht.le]

lemma bucketOwner_isSome (hne : md.ownersOrder ≠ []) {v : ℤ} {n : ℤ}
    (hn : n = md.ownersOrder.length) :
    (md.ownersOrder[(if v ≥ n then n - 1 else v).toNat]?).isSome := by
  have hlen := List.length_pos_iff.mpr hne
  rw [isSome_getElem?]
  split <;> omega

section Bucket

variable (ht : 0 < md.totalVnodes) (hfit : Fits 32 md.totalVnodes)
  (hv : md.vnodesPerOwner ≠ 0) (hne : md.ownersOrder ≠ []) (b : ℤ)
include ht hfit hv

lemma bucketOwnerChecked_bind (n : ℤ) :
    bucketOwnerChecked md n b =
      (checked 32 ((((fnv1a32 (UInt32.ofInt b)).toNat : ℤ) % md.totalVnodes) /
        md.vnodesPerOwner)).bind fun idx =>
          if 0 ≤ (if idx ≥ n then n - 1 else idx) then
            md.ownersOrder[(if idx ≥ n then n - 1 else idx).toNat]? else none := by
  have hmod : UInt32.ofInt md.totalVnodes ≠ 0 := by
    intro hzero
    have htot := toNat_ofInt_total ht hfit
    rw [hzero] at htot
    simp at htot
    omega
  have hvnode := vnode_eq ht hfit b
  have h0 := Int.emod_nonneg ((fnv1a32 (UInt32.ofInt b)).toNat : ℤ) ht.ne'
  have hlt := Int.emod_lt_of_pos ((fnv1a32 (UInt32.ofInt b)).toNat : ℤ) ht
  have hfits : Fits 32 (((fnv1a32 (UInt32.ofInt b)).toNat : ℤ) % md.totalVnodes) :=
    ⟨by omega, hlt.trans hfit.2⟩
  simp only [bucketOwnerChecked, hvnode, checked_of_fits hfits, guard, hmod, hv, ne_eq,
    not_false_eq_true, if_true, Option.bind_eq_bind, Option.pure_def, Option.bind_some,
    Int.tdiv_eq_ediv_of_nonneg h0]
  refine congrArg _ (funext fun idx => ?_)
  split_ifs <;> rfl

lemma bucketOwnerChecked_of_neg (hidx : ¬ IndexNonneg md b) (n : ℤ) (hn : 0 < n) :
    bucketOwnerChecked md n b = none := by
  have h0 := Int.emod_nonneg ((fnv1a32 (UInt32.ofInt b)).toNat : ℤ) ht.ne'
  rw [bucketOwnerChecked_bind ht hfit hv]
  unfold IndexNonneg at hidx
  obtain ⟨hneg, hge⟩ := Classical.not_imp.mp hidx
  generalize ((fnv1a32 (UInt32.ofInt b)).toNat : ℤ) % md.totalVnodes = h at *
  have hquot : h / md.vnodesPerOwner < 0 := by
    have hpos : 1 ≤ h / -md.vnodesPerOwner :=
      (Int.le_ediv_iff_mul_le (by omega)).mpr (by omega)
    rw [← Int.neg_neg md.vnodesPerOwner, Int.ediv_neg]
    omega
  rw [Option.bind_eq_none_iff]
  rintro idx hidx'
  obtain ⟨-, rfl⟩ := checked_eq_some.mp hidx'
  rw [if_neg]
  rw [if_neg] <;> omega

include hne

lemma bucketOwnerChecked_of_nonneg (hidx : IndexNonneg md b) :
    bucketOwnerChecked md md.ownersOrder.length b = bucketOwner md b := by
  have hlen := List.length_pos_iff.mpr hne
  have h0 := Int.emod_nonneg ((fnv1a32 (UInt32.ofInt b)).toNat : ℤ) ht.ne'
  have hlt := Int.emod_lt_of_pos ((fnv1a32 (UInt32.ofInt b)).toNat : ℤ) ht
  have hsmall := hlt.trans hfit.2
  rw [bucketOwnerChecked_bind ht hfit hv]
  unfold IndexNonneg at hidx
  unfold bucketOwner
  dsimp only
  generalize ((fnv1a32 (UInt32.ofInt b)).toNat : ℤ) % md.totalVnodes = h at *
  have hbounds : 0 ≤ h / md.vnodesPerOwner ∧ h / md.vnodesPerOwner ≤ h := by
    rcases lt_or_gt_of_ne hv with hneg | hpos
    · have hz : h / md.vnodesPerOwner = 0 := by
        rw [← Int.neg_neg md.vnodesPerOwner, Int.ediv_neg,
          Int.ediv_eq_zero_of_lt h0 (hidx hneg), Int.neg_zero]
      omega
    · exact ⟨Int.ediv_nonneg h0 hpos.le, Int.ediv_le_self _ h0⟩
  have hfits : Fits 32 (h / md.vnodesPerOwner) := ⟨by omega, by omega⟩
  rw [checked_of_fits hfits, Option.bind_some, if_pos]
  split <;> omega

omit hfit hv in
/-- With a negative count of vnodes the index is zero, if it is not negative. -/
lemma bucketOwner_of_neg (hneg : md.vnodesPerOwner < 0) (hidx : IndexNonneg md b) :
    bucketOwner md b = md.ownersOrder.head? := by
  have hlen := List.length_pos_iff.mpr hne
  have h0 := Int.emod_nonneg ((fnv1a32 (UInt32.ofInt b)).toNat : ℤ) ht.ne'
  have hlt := hidx hneg
  unfold bucketOwner
  dsimp only
  generalize ((fnv1a32 (UInt32.ofInt b)).toNat : ℤ) % md.totalVnodes = h at *
  have hz : h / md.vnodesPerOwner = 0 := by
    rw [← Int.neg_neg md.vnodesPerOwner, Int.ediv_neg, Int.ediv_eq_zero_of_lt h0 hlt,
      Int.neg_zero]
  rw [hz, if_neg (by omega), Int.toNat_zero, List.head?_eq_getElem?]

omit ht hfit hv in
lemma bucketOwner_mem : ∃ o, bucketOwner md b = some o ∧ o ∈ md.ownersOrder := by
  obtain ⟨o, ho⟩ := Option.isSome_iff_exists.mp
    (bucketOwner_isSome hne (v := ((fnv1a32 (UInt32.ofInt b)).toNat : ℤ) % md.totalVnodes /
      md.vnodesPerOwner) rfl)
  exact ⟨o, ho, List.mem_of_getElem? ho⟩

end Bucket

/-! ### The loop -/

lemma fits_natCast_of_le {a b : ℕ} (h : a ≤ b) (hb : Fits 32 b) : Fits 32 a := by
  obtain ⟨-, hlt⟩ := hb
  exact ⟨by omega, by omega⟩

lemma fits_succ {b : ℤ} {k : ℕ} (hb : Fits 64 b) (hbk : Fits 64 (b + (k + 1 : ℕ))) :
    Fits 64 (b + 1) := by
  obtain ⟨hlow, -⟩ := hb
  obtain ⟨-, hhigh⟩ := hbk
  exact ⟨by omega, by omega⟩

variable [DecidableEq N]

lemma hitLoopChecked_step {n : ℤ} {k : ℕ} {b : ℤ} {hit : Finset N} {o : N}
    (ho : bucketOwnerChecked md n b = some o) (hcard : Fits 32 (insert o hit).card)
    (hb : Fits 64 (b + 1)) :
    hitLoopChecked md n (k + 1) b hit =
      if ((insert o hit).card : ℤ) ≥ n then some (insert o hit)
      else hitLoopChecked md n k (b + 1) (insert o hit) := by
  rw [hitLoopChecked, ho, Option.bind_some, checked_of_fits hcard, Option.bind_some,
    checked_of_fits hb, Option.bind_some]

section Loop

variable (ht : 0 < md.totalVnodes) (hfit : Fits 32 md.totalVnodes)
  (hv : md.vnodesPerOwner ≠ 0) (hne : md.ownersOrder ≠ [])
  (hlen : Fits 32 md.ownersOrder.length)
include ht hfit hv hne hlen

lemma hitLoopChecked_isSome (k : ℕ) (b : ℤ) (hit : Finset N)
    (hsub : ∀ o ∈ hit, o ∈ md.ownersOrder)
    (hfirst : md.vnodesPerOwner < 0 → ∀ o ∈ hit, md.ownersOrder.head? = some o)
    (hb : Fits 64 b) (hbk : Fits 64 (b + k)) :
    (hitLoopChecked md md.ownersOrder.length k b hit).isSome ↔
      ∀ j : ℕ, j < k → (md.ownersOrder.length = 1 → j = 0) → IndexNonneg md (b + j) := by
  induction k generalizing b hit with
  | zero => simp [hitLoopChecked]
  | succ k ih =>
    by_cases hidx : IndexNonneg md b
    · obtain ⟨o, ho, homem⟩ := bucketOwner_mem hne b
      have hsub' : ∀ x ∈ insert o hit, x ∈ md.ownersOrder := by
        intro x hx
        rcases Finset.mem_insert.mp hx with rfl | hx
        · exact homem
        · exact hsub x hx
      have hfirst' : md.vnodesPerOwner < 0 → ∀ x ∈ insert o hit,
          md.ownersOrder.head? = some x := by
        intro hneg x hx
        rcases Finset.mem_insert.mp hx with rfl | hx
        · rw [← ho, bucketOwner_of_neg ht hne b hneg hidx]
        · exact hfirst hneg x hx
      have hcard : (insert o hit).card ≤ md.ownersOrder.length :=
        (Finset.card_le_card fun x hx => List.mem_toFinset.mpr (hsub' x hx)).trans
          (List.toFinset_card_le _)
      have hpos : 0 < (insert o hit).card := Finset.card_pos.mpr (Finset.insert_nonempty o hit)
      have hcfit : Fits 32 (insert o hit).card := fits_natCast_of_le hcard hlen
      have hbfit : Fits 64 (b + 1) := fits_succ hb hbk
      rw [hitLoopChecked_step
        ((bucketOwnerChecked_of_nonneg ht hfit hv hne b hidx).trans ho) hcfit hbfit]
      split
      case isTrue hsat =>
        -- saturated: with a negative count there is one owner, and this was the first bucket
        refine iff_of_true rfl fun j hj hone => ?_
        intro hneg
        have hle : (insert o hit).card ≤ 1 := Finset.card_le_one.mpr fun x hx y hy =>
          Option.some.inj ((hfirst' hneg x hx).symm.trans (hfirst' hneg y hy))
        obtain rfl := hone (by omega)
        rw [Nat.cast_zero, add_zero]
        exact hidx hneg
      case isFalse hsat =>
        have hbk' : Fits 64 (b + 1 + k) := by
          rwa [add_assoc, add_comm 1, ← Nat.cast_succ]
        rw [ih (b + 1) _ hsub' hfirst' hbfit hbk']
        constructor
        · intro h j hj hone
          cases j with
          | zero => simpa using hidx
          | succ j =>
            have hnext := h j (by omega) (by omega)
            rwa [add_assoc, add_comm 1, ← Nat.cast_succ] at hnext
        · intro h j hj hone
          have hnext := h (j + 1) (by omega) (by omega)
          rwa [Nat.cast_succ, add_comm (j : ℤ), ← add_assoc] at hnext
    · rw [hitLoopChecked, bucketOwnerChecked_of_neg ht hfit hv b hidx]
      · refine iff_of_false Bool.false_ne_true fun h => hidx ?_
        simpa using h 0 (by omega) fun _ => rfl
      · have := List.length_pos_iff.mpr hne
        omega

omit hlen in
lemma hitLoopChecked_eq {k : ℕ} {b : ℤ} {hit r : Finset N}
    (h : hitLoopChecked md md.ownersOrder.length k b hit = some r) :
    hitLoop md k b hit = r := by
  induction k generalizing b hit with
  | zero => exact Option.some.inj h
  | succ k ih =>
    rw [hitLoopChecked] at h
    obtain ⟨o, ho, h⟩ := Option.bind_eq_some_iff.mp h
    obtain ⟨size, hsize, h⟩ := Option.bind_eq_some_iff.mp h
    obtain ⟨-, rfl⟩ := checked_eq_some.mp hsize
    have hidx : IndexNonneg md b := by
      by_contra hneg
      rw [bucketOwnerChecked_of_neg ht hfit hv b hneg] at ho
      · exact Option.some_ne_none o ho.symm
      · have := List.length_pos_iff.mpr hne
        omega
    rw [bucketOwnerChecked_of_nonneg ht hfit hv hne b hidx] at ho
    rw [hitLoop, ho]
    dsimp only
    split at h
    · rw [if_pos (by omega)]
      exact Option.some.inj h
    · rw [if_neg (by omega)]
      obtain ⟨b', hb', h⟩ := Option.bind_eq_some_iff.mp h
      obtain ⟨-, rfl⟩ := checked_eq_some.mp hb'
      exact ih h

end Loop

/-! ### The window -/

omit [DecidableEq N] in
lemma forall_buckets {lo hi : ℤ} {one : Prop} {P : ℤ → Prop} :
    (∀ j : ℕ, j < (hi - lo + 1).toNat → (one → j = 0) → P (lo + j)) ↔
      ∀ b, lo ≤ b → b ≤ hi → (one → b = lo) → P b := by
  constructor
  · intro h b hlo hhi hone
    have hb := h (b - lo).toNat (by omega) fun h1 => by
      rw [hone h1, sub_self, Int.toNat_zero]
    rwa [Int.toNat_of_nonneg (by omega), add_sub_cancel] at hb
  · intro h j hj hone
    exact h (lo + j) (by omega) (by omega) fun h1 => by rw [hone h1, Nat.cast_zero, add_zero]

lemma fits_window {lo hi : ℤ} (hlo0 : 0 ≤ lo) (hle : lo = 0 ∨ lo ≤ hi) (hhi : -2 ^ 63 ≤ hi)
    (hhi' : hi ≤ 2 ^ 63 - 1024) : Fits 64 (hi - lo) ∧ Fits 64 (hi - lo + 1) ∧
      Fits 64 (lo + (hi - lo + 1).toNat) := by
  refine ⟨⟨by omega, by omega⟩, ⟨by omega, by omega⟩, by omega, by omega⟩

lemma windowOwnersChecked_isSome (hmd : Fits 32 md.totalVnodes) (ht : md.totalVnodes ≠ 0)
    (hv : md.vnodesPerOwner ≠ 0) (hne : md.ownersOrder ≠ []) {lo hi : ℤ} (hlo0 : 0 ≤ lo)
    (hle : lo = 0 ∨ lo ≤ hi) (hhi : -2 ^ 63 ≤ hi) (hhi' : hi ≤ 2 ^ 63 - 1024) :
    (windowOwnersChecked allOwners md lo hi).isSome ↔
      (hi - lo + 1 ≤ md.totalVnodes * 4 →
        Fits 32 md.ownersOrder.length ∧
        ∀ b, lo ≤ b → b ≤ hi → (md.ownersOrder.length = 1 → b = lo) → IndexNonneg md b) := by
  obtain ⟨hdist, hspan, hend⟩ := fits_window hlo0 hle hhi hhi'
  have hlo : Fits 64 lo := ⟨by omega, by omega⟩
  have hcap : Fits 64 (md.totalVnodes * 4) := by
    obtain ⟨hl, hr⟩ := hmd
    exact ⟨by omega, by omega⟩
  rw [windowOwnersChecked, checked_of_fits hdist, Option.bind_some, checked_of_fits hspan,
    Option.bind_some, checked_of_fits hcap, Option.bind_some]
  split
  case isTrue hwide => exact iff_of_true rfl fun hle => absurd hle (not_le.mpr hwide)
  case isFalse hwide =>
    rw [imp_iff_right (not_lt.mp hwide)]
    by_cases hlen : Fits 32 md.ownersOrder.length
    · rw [checked_of_fits hlen, Option.bind_some, Option.isSome_map, ← forall_buckets]
      rcases lt_or_gt_of_ne ht with hneg | hpos
      · -- the window is empty
        have hempty : (hi - lo + 1).toNat = 0 := by omega
        rw [hempty]
        exact iff_of_true rfl ⟨hlen, fun j hj => absurd hj (Nat.not_lt_zero j)⟩
      · rw [hitLoopChecked_isSome hpos hmd hv hne hlen _ _ _ (by simp) (by simp) hlo hend]
        exact (and_iff_right hlen).symm
    · rw [checked_of_not_fits hlen]
      exact iff_of_false Bool.false_ne_true fun h => hlen h.1

/-! ### The branches -/

lemma puLocationChecked_isSome : (puLocationChecked allOwners query md).isSome ↔
    ∀ pred, findPred query "pu_location_id" = some pred →
      Fits 32 (trunc pred.low) ∧ Fits 32 (trunc pred.high) := by
  unfold puLocationChecked
  cases hpred : findPred query "pu_location_id" with
  | none => simp
  | some pred =>
    simp only [Option.some.injEq, forall_eq', castChecked, Option.bind_eq_bind]
    constructor
    · intro h
      obtain ⟨r, hr⟩ := Option.isSome_iff_exists.mp h
      obtain ⟨low, hlow, hr⟩ := Option.bind_eq_some_iff.mp hr
      obtain ⟨high, hhigh, -⟩ := Option.bind_eq_some_iff.mp hr
      exact ⟨(checked_eq_some.mp hlow).1, (checked_eq_some.mp hhigh).1⟩
    · rintro ⟨hlow, hhigh⟩
      rw [checked_of_fits hlow, checked_of_fits hhigh]
      rfl

lemma time_isSome (x : ℚ) :
    ((castChecked 64 x).bind monthChecked).isSome ↔ TimeInRange x := by
  unfold TimeInRange
  constructor
  · intro h
    obtain ⟨r, hr⟩ := Option.isSome_iff_exists.mp h
    obtain ⟨t, ht, hr⟩ := Option.bind_eq_some_iff.mp hr
    obtain ⟨hfit, rfl⟩ := checked_eq_some.mp ht
    obtain ⟨y, hy, -⟩ := Option.map_eq_some_iff.mp hr
    exact ⟨hfit, (checked_eq_some.mp hy).1⟩
  · rintro ⟨hfit, hyear⟩
    rw [castChecked, checked_of_fits hfit, Option.bind_some, monthChecked, checked_of_fits hyear]
    rfl

lemma pickupDatetimeChecked_isSome : (pickupDatetimeChecked allOwners query md).isSome ↔
    ∀ pred, findPred query "pickup_datetime" = some pred →
      TimeInRange pred.low ∧ TimeInRange pred.high := by
  unfold pickupDatetimeChecked
  cases hpred : findPred query "pickup_datetime" with
  | none => simp
  | some pred =>
    simp only [Option.some.injEq, forall_eq', ← time_isSome]
    constructor
    · intro h
      obtain ⟨r, hr⟩ := Option.isSome_iff_exists.mp h
      obtain ⟨low, hlow, hr⟩ := Option.bind_eq_some_iff.mp hr
      obtain ⟨high, hhigh, -⟩ := Option.bind_eq_some_iff.mp hr
      rw [hlow, hhigh]
      exact ⟨rfl, rfl⟩
    · rintro ⟨hlow, hhigh⟩
      obtain ⟨low, hlow⟩ := Option.isSome_iff_exists.mp hlow
      obtain ⟨high, hhigh⟩ := Option.isSome_iff_exists.mp hhigh
      rw [hlow, hhigh]
      rfl

lemma ordered_eq (x y : ℚ) {p : ℤ × ℤ}
    (hp : (if trunc x > trunc y then (trunc y, trunc x) else (trunc x, trunc y)) = p) :
    (if p.1 < 0 then 0 else p.1) = (window x y).1 ∧ p.2 = (window x y).2 := by
  have hclamp : ∀ a : ℤ, (if a < 0 then 0 else a) = max 0 a := by
    intro a
    split <;> omega
  rw [hclamp, ← hp]
  dsimp only [window]
  split
  · rename_i hgt
    rw [min_eq_right hgt.le, max_eq_left hgt.le]
    exact ⟨rfl, rfl⟩
  · rename_i hle
    rw [min_eq_left (not_lt.mp hle), max_eq_right (not_lt.mp hle)]
    exact ⟨rfl, rfl⟩

lemma windowOwnersChecked_window (hmd : Fits 32 md.totalVnodes) (ht : md.totalVnodes ≠ 0)
    (hv : md.vnodesPerOwner ≠ 0) (hne : md.ownersOrder ≠ []) {x y : ℚ} (hx : IsDouble x)
    (hy : IsDouble y) (hfx : Fits 64 (trunc x)) (hfy : Fits 64 (trunc y)) :
    (windowOwnersChecked allOwners md (window x y).1 (window x y).2).isSome ↔
      ((window x y).2 - (window x y).1 + 1 ≤ md.totalVnodes * 4 →
        Fits 32 md.ownersOrder.length ∧
        ∀ b, (window x y).1 ≤ b → b ≤ (window x y).2 →
          (md.ownersOrder.length = 1 → b = (window x y).1) → IndexNonneg md b) := by
  have hxle := hx.trunc_le hfx.2
  have hyle := hy.trunc_le hfy.2
  refine windowOwnersChecked_isSome hmd ht hv hne (le_max_left _ _) ?_ ?_ (max_le hxle hyle)
  · rcases le_total 0 (min (trunc x) (trunc y)) with h | h
    · exact .inr ((max_eq_right h).trans_le (min_le_max))
    · exact .inl (max_eq_left h)
  · exact hfx.1.trans (le_max_left _ _)

omit [DecidableEq N] in
lemma bucketChecked_eq_some {x : ℚ} {b : ℤ} : bucketChecked mul md x = some b ↔
    ∃ y, mul x md.hashBucketMultiplier = some y ∧ Fits 64 (trunc y) ∧ trunc y = b := by
  rw [bucketChecked, Option.bind_eq_some_iff]
  exact exists_congr fun y => and_congr_right fun _ => checked_eq_some

lemma consistentHashChecked_isSome (hmul : ∀ x m y, mul x m = some y → IsDouble y)
    (hmd : Fits 32 md.totalVnodes) :
    (consistentHashChecked mul allOwners query md).isSome ↔
      (md.vnodesPerOwner ≠ 0 → md.totalVnodes ≠ 0 → md.ownersOrder ≠ [] →
        ∀ pred, findPred query md.hashColumn = some pred → HashInRange mul md pred) := by
  unfold consistentHashChecked
  split
  case isTrue hoff =>
    refine iff_of_true rfl fun hv ht hne => ?_
    simp [hv, ht, hne] at hoff
  case isFalse hon =>
    simp only [Bool.or_eq_true, beq_iff_eq, List.isEmpty_iff, not_or] at hon
    obtain ⟨⟨hv, ht⟩, hne⟩ := hon
    rw [imp_iff_right hv, imp_iff_right ht, imp_iff_right hne]
    cases hpred : findPred query md.hashColumn with
    | none => simp
    | some pred =>
      simp only [Option.some.injEq, forall_eq']
      constructor
      · intro h
        obtain ⟨r, hr⟩ := Option.isSome_iff_exists.mp h
        obtain ⟨bLo, hlo, hr⟩ := Option.bind_eq_some_iff.mp hr
        obtain ⟨bHi, hhi, hr⟩ := Option.bind_eq_some_iff.mp hr
        obtain ⟨x, hx, hfx, rfl⟩ := bucketChecked_eq_some.mp hlo
        obtain ⟨y, hy, hfy, rfl⟩ := bucketChecked_eq_some.mp hhi
        refine ⟨x, y, hx, hy, hfx, hfy, ?_⟩
        rw [(ordered_eq x y rfl).1, (ordered_eq x y rfl).2] at hr
        exact (windowOwnersChecked_window hmd ht hv hne (hmul _ _ x hx) (hmul _ _ y hy) hfx
          hfy).mp (Option.isSome_iff_exists.mpr ⟨r, hr⟩)
      · rintro ⟨x, y, hx, hy, hfx, hfy, h⟩
        rw [bucketChecked_eq_some.mpr ⟨x, hx, hfx, rfl⟩,
          bucketChecked_eq_some.mpr ⟨y, hy, hfy, rfl⟩, Option.bind_some, Option.bind_some,
          (ordered_eq x y rfl).1, (ordered_eq x y rfl).2]
        exact (windowOwnersChecked_window hmd ht hv hne (hmul _ _ x hx) (hmul _ _ y hy) hfx
          hfy).mpr h

/-- **Where routing stays in range**: no conversion or operation leaves its type, no divisor is
zero and every index is one of the list, if and only if the condition for the branch holds. -/
lemma eligibleOwnersChecked_isSome (hmul : ∀ x m y, mul x m = some y → IsDouble y)
    (hmd : Fits 32 md.totalVnodes) :
    (eligibleOwnersChecked mul allOwners query md).isSome ↔
      md.empty = true ∨ InRange mul query md := by
  unfold eligibleOwnersChecked
  by_cases hempty : md.empty = true
  · rw [if_pos (by simp [hempty])]
    exact iff_of_true rfl (.inl hempty)
  rw [or_iff_right hempty]
  by_cases hnone : query.predicates = []
  · have hpred : ∀ column, findPred query column = none := fun column => by
      rw [findPred, hnone, List.find?_nil]
    rw [if_pos (by simp [hnone])]
    exact iff_of_true rfl ⟨fun _ => by simp [hpred], fun _ _ _ _ => by simp [hpred],
      fun _ => by simp [hpred]⟩
  rw [if_neg (by simp [hempty, hnone])]
  split_ifs with h1 h2 h3 h4
  · have hs : md.scheme = "trip_distance" := beq_iff_eq.mp h1
    exact iff_of_true rfl ⟨by simp [hs], by simp [hs], by simp [hs]⟩
  · have hs : md.scheme = "pu_location_id" := beq_iff_eq.mp h2
    rw [puLocationChecked_isSome]
    exact ⟨fun h => ⟨fun _ => h, by simp [hs], by simp [hs]⟩, fun h => h.zones hs⟩
  · have hs : md.scheme = "consistent_hash" := beq_iff_eq.mp h3
    rw [consistentHashChecked_isSome hmul hmd]
    exact ⟨fun h => ⟨by simp [hs], fun _ => h, by simp [hs]⟩, fun h => h.hash hs⟩
  · have hs : md.scheme = "pickup_datetime" := beq_iff_eq.mp h4
    rw [pickupDatetimeChecked_isSome]
    exact ⟨fun h => ⟨by simp [hs], by simp [hs], fun _ => h⟩, fun h => h.months hs⟩
  · simp only [beq_iff_eq] at h2 h3 h4
    exact iff_of_true rfl ⟨fun h => absurd h h2, fun h => absurd h h3, fun h => absurd h h4⟩

/-! ### The results -/

lemma puLocationChecked_eq {r : List N} (h : puLocationChecked allOwners query md = some r) :
    puLocationOwners allOwners query md = r := by
  unfold puLocationChecked at h
  unfold puLocationOwners
  cases hpred : findPred query "pu_location_id" with
  | none =>
    rw [hpred] at h
    exact Option.some.inj h
  | some pred =>
    rw [hpred] at h
    obtain ⟨low, hlow, h⟩ := Option.bind_eq_some_iff.mp h
    obtain ⟨high, hhigh, h⟩ := Option.bind_eq_some_iff.mp h
    obtain ⟨-, rfl⟩ := checked_eq_some.mp hlow
    obtain ⟨-, rfl⟩ := checked_eq_some.mp hhigh
    exact Option.some.inj h

omit [DecidableEq N] in
lemma month_of_checked {x : ℚ} {m : ℤ}
    (h : (castChecked 64 x).bind monthChecked = some m) : monthOfEpoch (trunc x) = m := by
  obtain ⟨t, ht, h⟩ := Option.bind_eq_some_iff.mp h
  obtain ⟨-, rfl⟩ := checked_eq_some.mp ht
  obtain ⟨y, -, h⟩ := Option.map_eq_some_iff.mp h
  exact h

lemma pickupDatetimeChecked_eq {r : List N}
    (h : pickupDatetimeChecked allOwners query md = some r) :
    pickupDatetimeOwners allOwners query md = r := by
  unfold pickupDatetimeChecked at h
  unfold pickupDatetimeOwners
  cases hpred : findPred query "pickup_datetime" with
  | none =>
    rw [hpred] at h
    exact Option.some.inj h
  | some pred =>
    rw [hpred] at h
    obtain ⟨mLo, hlo, h⟩ := Option.bind_eq_some_iff.mp h
    obtain ⟨mHi, hhi, h⟩ := Option.bind_eq_some_iff.mp h
    obtain rfl := month_of_checked hlo
    obtain rfl := month_of_checked hhi
    exact Option.some.inj h

lemma windowOwnersChecked_eq (hmd : Fits 32 md.totalVnodes) (ht : md.totalVnodes ≠ 0)
    (hv : md.vnodesPerOwner ≠ 0) (hne : md.ownersOrder ≠ []) {lo hi : ℤ} {r : List N}
    (h : windowOwnersChecked allOwners md lo hi = some r) :
    (if hi - lo + 1 > md.totalVnodes * 4 then allOwners
      else
        let out := allOwners.filter fun o => o ∈ hitLoop md (hi - lo + 1).toNat lo ∅
        if out.isEmpty then allOwners else out) = r := by
  obtain ⟨distance, hd, h⟩ := Option.bind_eq_some_iff.mp h
  obtain ⟨-, rfl⟩ := checked_eq_some.mp hd
  obtain ⟨span, hs, h⟩ := Option.bind_eq_some_iff.mp h
  obtain ⟨-, rfl⟩ := checked_eq_some.mp hs
  obtain ⟨cap, hc, h⟩ := Option.bind_eq_some_iff.mp h
  obtain ⟨-, rfl⟩ := checked_eq_some.mp hc
  split at h
  · rw [if_pos (by assumption)]
    exact Option.some.inj h
  · rename_i hwide
    rw [if_neg hwide]
    obtain ⟨n, hn, h⟩ := Option.bind_eq_some_iff.mp h
    obtain ⟨-, rfl⟩ := checked_eq_some.mp hn
    obtain ⟨hit, hhit, h⟩ := Option.map_eq_some_iff.mp h
    have hloop : hitLoop md (hi - lo + 1).toNat lo ∅ = hit := by
      rcases lt_or_gt_of_ne ht with hneg | hpos
      · have hempty : (hi - lo + 1).toNat = 0 := by omega
        rw [hempty] at hhit ⊢
        exact Option.some.inj hhit
      · exact hitLoopChecked_eq hpos hmd hv hne hhit
    rw [hloop]
    exact h

lemma consistentHashChecked_eq (hexact : ∀ x m y, mul x m = some y → y = x * m)
    (hmd : Fits 32 md.totalVnodes) {r : List N}
    (h : consistentHashChecked mul allOwners query md = some r) :
    consistentHashOwners allOwners query md = r := by
  unfold consistentHashChecked at h
  unfold consistentHashOwners
  split at h
  case isTrue hoff =>
    rw [if_pos hoff]
    exact Option.some.inj h
  case isFalse hon =>
    rw [if_neg hon]
    simp only [Bool.or_eq_true, beq_iff_eq, List.isEmpty_iff, not_or] at hon
    obtain ⟨⟨hv, ht⟩, hne⟩ := hon
    cases hpred : findPred query md.hashColumn with
    | none =>
      rw [hpred] at h
      exact Option.some.inj h
    | some pred =>
      rw [hpred] at h
      obtain ⟨bLo, hlo, h⟩ := Option.bind_eq_some_iff.mp h
      obtain ⟨bHi, hhi, h⟩ := Option.bind_eq_some_iff.mp h
      obtain ⟨x, hx, -, rfl⟩ := bucketChecked_eq_some.mp hlo
      obtain ⟨y, hy, -, rfl⟩ := bucketChecked_eq_some.mp hhi
      obtain rfl := hexact _ _ _ hx
      obtain rfl := hexact _ _ _ hy
      exact windowOwnersChecked_eq hmd ht hv hne h

/-- A routing that gets through, with exact products, is the one without checks. -/
lemma eligibleOwnersChecked_eq (hexact : ∀ x m y, mul x m = some y → y = x * m)
    (hmd : Fits 32 md.totalVnodes) {r : List N}
    (h : eligibleOwnersChecked mul allOwners query md = some r) :
    eligibleOwners allOwners query md = r := by
  unfold eligibleOwnersChecked at h
  unfold eligibleOwners
  split_ifs at h ⊢ with h1 h2 h3 h4 h5
  · exact Option.some.inj h
  · exact Option.some.inj h
  · exact puLocationChecked_eq h
  · exact consistentHashChecked_eq hexact hmd h
  · exact pickupDatetimeChecked_eq h
  · exact Option.some.inj h

/-! ### Manifests -/

open Mini2.Json Mini2.Manifest

/-- **Routing stays in range just where the condition says**, whatever the text of the
manifest. -/
theorem inRange_iff (hmul : ∀ x m y, mul x m = some y → IsDouble y) (stod : List Char → ℚ)
    (file : Option (List Char)) (allOwners : List String) (query : Query) :
    (eligibleOwnersChecked mul allOwners query (loadOwnerMetadata stod file)).isSome ↔
      (loadOwnerMetadata stod file).empty = true ∨
        InRange mul query (loadOwnerMetadata stod file) :=
  eligibleOwnersChecked_isSome hmul (ints_load stod file).totalVnodes

/-- The product of an integer, as long as a double can count it. -/
def mulInt (x : ℚ) (m : ℤ) : Option ℚ :=
  if x.den = 1 ∧ |x.num * m| < 2 ^ 53 then some (x.num * m) else none

lemma isDouble_mulInt {x : ℚ} {m : ℤ} {y : ℚ} (h : mulInt x m = some y) : IsDouble y := by
  obtain ⟨⟨-, hlt⟩, hy⟩ := Option.ite_none_right_eq_some.mp h
  refine ⟨x.num * m, 0, hlt, by norm_num, by norm_num, ?_⟩
  rw [zpow_zero, mul_one, ← Option.some.inj hy]
  push_cast
  rfl

/-- A manifest with a zone table in which `A` has no zone. -/
def zoneManifest : List Char :=
  '\x7b' :: (quote "scheme" ++ ':' :: (quote "pu_location_id" ++ ',' :: (quote "owner_zones" ++
    ':' :: '\x7b' :: (quote "A" ++ [':', '[', ']', '\x7d', '\x7d']))))

lemma load_zoneManifest (stod : List Char → ℚ) : loadOwnerMetadata stod (some zoneManifest) =
    { scheme := "pu_location_id", zones := [("A", [])] } := by
  have hreads : Reads (fun _ => none) stod :=
    ⟨fun h => by simp at h, fun h => by simp at h, fun h => by simp at h⟩
  have htable : Text (fun _ => none) (.value (.obj [("A", .arr [])]))
      ('\x7b' :: (quote "A" ++ [':', '[', ']', '\x7d'])) :=
    .obj (.field space_nil (quoted_quote (by simp)) space_nil space_nil (.arrEmpty space_nil)
      space_nil) (.refl _) (List.pairwise_singleton _ _)
  have hroot : Text (fun _ => none)
      (.value (.obj [("owner_zones", .obj [("A", .arr [])]), ("scheme", .str "pu_location_id")]))
      zoneManifest :=
    .obj (.fields space_nil (quoted_quote (by simp)) space_nil space_nil
      (.str (quoted_quote (by simp))) space_nil
      (.field space_nil (quoted_quote (by simp)) space_nil space_nil htable space_nil))
      (List.Perm.swap _ _ _) (by
        refine List.pairwise_cons.mpr ⟨fun f hf => ?_, List.pairwise_singleton _ _⟩
        obtain rfl := List.mem_singleton.mp hf
        decide)
  have hparse := hroot.parseRoot hreads space_nil space_nil
  rw [List.nil_append, List.append_nil] at hparse
  rw [loadOwnerMetadata, Option.bind_some, hparse]
  simp [metadataOf, strField, intField, objField, strsField, tableOf, intsOf, List.lookup_cons]

theorem inRange_iff_zones : (eligibleOwnersChecked mulInt ["A"]
    ⟨[⟨"pu_location_id", 1, 5, true⟩]⟩
    (loadOwnerMetadata (fun s => (number s).getD 0) (some zoneManifest))).isSome := by
  refine (inRange_iff (fun _ _ _ => isDouble_mulInt) _ _ _ _).mpr (.inr ?_)
  rw [load_zoneManifest]
  refine ⟨fun _ pred hpred => ?_, fun h => absurd h (by decide), fun h => absurd h (by decide)⟩
  have h1 : trunc (1 : ℚ) = 1 := by exact_mod_cast trunc_intCast 1
  have h5 : trunc (5 : ℚ) = 5 := by exact_mod_cast trunc_intCast 5
  obtain rfl : (⟨"pu_location_id", 1, 5, true⟩ : RangePredicate) = pred := Option.some.inj hpred
  dsimp only
  rw [h1, h5]
  decide

/-- A window that ends behind the last value of an `int`. -/
theorem not_inRange : ¬ ∀ (stod : List Char → ℚ) (file : Option (List Char))
    (allOwners : List String) (query : Query),
    (eligibleOwnersChecked mulInt allOwners query (loadOwnerMetadata stod file)).isSome := by
  intro h
  have hsome := h (fun _ => 0) (some zoneManifest) ["A"]
    ⟨[⟨"pu_location_id", 1, 2 ^ 31, true⟩]⟩
  rw [load_zoneManifest,
    eligibleOwnersChecked_isSome (fun _ _ _ => isDouble_mulInt) (by decide)] at hsome
  rcases hsome with hempty | hrange
  · revert hempty
    decide
  · have hfits := (hrange.zones rfl ⟨"pu_location_id", 1, 2 ^ 31, true⟩ rfl).2
    have hcast : trunc ((2 : ℚ) ^ 31) = 2 ^ 31 := by
      have hint := trunc_intCast (2 ^ 31)
      push_cast at hint
      exact hint
    dsimp only at hfits
    rw [hcast] at hfits
    revert hfits
    decide

end Mini2.Routing
