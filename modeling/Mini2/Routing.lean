import Mathlib.Data.Finset.Insert
import Mathlib.Data.Finset.Card
import Mini2.Store
import Mini2.Lib.Trunc
import Mini2.Lib.Calendar

/-!
Smart routing: from the data owners, those whose shard could match a query, by the
clustering metadata of the manifest. Four clustering schemes have a branch each; any other
scheme keeps every owner.
-/

namespace Mini2.Routing

open Mini2.Proto Mini2.Store Mini2.Trunc

variable {N : Type} [DecidableEq N]

/-- What the manifest says about the shards. -/
structure OwnerMetadata (N : Type) where
  scheme : String
  distRange : List (N × ℚ × ℚ) := []
  zones : List (N × List ℤ) := []
  months : List (N × List ℤ) := []
  hashBucketMultiplier : ℤ := 100
  vnodesPerOwner : ℤ := 0
  totalVnodes : ℤ := 0
  hashColumn : String := ""
  ownersOrder : List N := []

def OwnerMetadata.empty (md : OwnerMetadata N) : Bool :=
  md.scheme.isEmpty ||
    (md.distRange.isEmpty && md.zones.isEmpty && md.months.isEmpty &&
      md.vnodesPerOwner == 0)

/-- The UTC month of an epoch second. -/
def monthOfEpoch (epoch : ℤ) : ℤ := Calendar.monthOf (epoch / 86400)

/-- The 32-bit FNV-1a hash of the little-endian bytes of a word. -/
def fnv1a32 (x : UInt32) : UInt32 :=
  let round : UInt32 × UInt32 → UInt32 × UInt32 := fun (h, x) =>
    ((h ^^^ (x &&& 0xff)) * 16777619, x >>> 8)
  (round (round (round (round (2166136261, x))))).1

def findPred (query : Query) (column : String) : Option RangePredicate :=
  query.predicates.find? fun p => p.column == column

/-- The `trip_distance` branch: the range of the owner meets the window. -/
def tripDistanceOwners (allOwners : List N) (query : Query) (md : OwnerMetadata N) : List N :=
  match findPred query "trip_distance" with
  | none => allOwners
  | some pred =>
    allOwners.filter fun o =>
      match md.distRange.lookup o with
      | none => true
      | some (lo, hi) => !(hi < pred.low || lo > pred.high)

/-- The `pu_location_id` branch: some zone of the owner lies in the truncated window. -/
def puLocationOwners (allOwners : List N) (query : Query) (md : OwnerMetadata N) : List N :=
  match findPred query "pu_location_id" with
  | none => allOwners
  | some pred =>
    let low := trunc pred.low
    let high := trunc pred.high
    allOwners.filter fun o =>
      match md.zones.lookup o with
      | none => true
      | some zs => zs.any fun z => z ≥ low && z ≤ high

/-- The owner of a bucket, as the loop looks it up. -/
def bucketOwner (md : OwnerMetadata N) (b : ℤ) : Option N :=
  let v : ℤ := (fnv1a32 (UInt32.ofInt b)).toNat % md.totalVnodes
  let ownerIdx := v / md.vnodesPerOwner
  let nOwners : ℤ := md.ownersOrder.length
  let ownerIdx := if ownerIdx ≥ nOwners then nOwners - 1 else ownerIdx
  md.ownersOrder[ownerIdx.toNat]?

/-- The loop over the buckets from `b`, `k` of them at most: it stops once as many owners
are hit as the stripe order is long. -/
def hitLoop (md : OwnerMetadata N) : ℕ → ℤ → Finset N → Finset N
  | 0, _, hit => hit
  | k + 1, b, hit =>
    let hit := match bucketOwner md b with
      | none => hit
      | some o => insert o hit
    if hit.card ≥ md.ownersOrder.length then hit else hitLoop md k (b + 1) hit

/-- The `consistent_hash` branch: the owners of the buckets in the window. -/
def consistentHashOwners (allOwners : List N) (query : Query) (md : OwnerMetadata N) :
    List N :=
  if md.vnodesPerOwner == 0 || md.totalVnodes == 0 || md.ownersOrder.isEmpty then
    allOwners
  else
    match findPred query md.hashColumn with
    | none => allOwners
    | some pred =>
      let bLo := trunc (pred.low * md.hashBucketMultiplier)
      let bHi := trunc (pred.high * md.hashBucketMultiplier)
      let (bLo, bHi) := if bLo > bHi then (bHi, bLo) else (bLo, bHi)
      let bLo := if bLo < 0 then 0 else bLo
      let span := bHi - bLo + 1
      let cap := md.totalVnodes * 4
      if span > cap then allOwners
      else
        let hit := hitLoop md span.toNat bLo ∅
        let out := allOwners.filter fun o => o ∈ hit
        if out.isEmpty then allOwners else out

/-- The `pickup_datetime` branch: some month of the owner lies between the months of the
two ends, put in order. -/
def pickupDatetimeOwners (allOwners : List N) (query : Query) (md : OwnerMetadata N) :
    List N :=
  match findPred query "pickup_datetime" with
  | none => allOwners
  | some pred =>
    let mLo := monthOfEpoch (trunc pred.low)
    let mHi := monthOfEpoch (trunc pred.high)
    let (mLo, mHi) := if mLo > mHi then (mHi, mLo) else (mLo, mHi)
    allOwners.filter fun o =>
      match md.months.lookup o with
      | none => true
      | some ms => ms.any fun m => m ≥ mLo && m ≤ mHi

def eligibleOwners (allOwners : List N) (query : Query) (md : OwnerMetadata N) : List N :=
  if md.empty || query.predicates.length == 0 then allOwners
  else if md.scheme == "trip_distance" then tripDistanceOwners allOwners query md
  else if md.scheme == "pu_location_id" then puLocationOwners allOwners query md
  else if md.scheme == "consistent_hash" then consistentHashOwners allOwners query md
  else if md.scheme == "pickup_datetime" then pickupDatetimeOwners allOwners query md
  else allOwners

variable {allOwners : List N} {query : Query} {md : OwnerMetadata N}

lemma tripDistanceOwners_sublist :
    (tripDistanceOwners allOwners query md).Sublist allOwners := by
  unfold tripDistanceOwners
  split
  · exact List.Sublist.refl _
  · exact List.filter_sublist

lemma puLocationOwners_sublist :
    (puLocationOwners allOwners query md).Sublist allOwners := by
  unfold puLocationOwners
  split
  · exact List.Sublist.refl _
  · exact List.filter_sublist

lemma consistentHashOwners_sublist :
    (consistentHashOwners allOwners query md).Sublist allOwners := by
  unfold consistentHashOwners
  split
  · exact List.Sublist.refl _
  · split
    · exact List.Sublist.refl _
    · dsimp only
      split_ifs
      all_goals first
        | exact List.Sublist.refl _
        | exact List.filter_sublist

lemma pickupDatetimeOwners_sublist :
    (pickupDatetimeOwners allOwners query md).Sublist allOwners := by
  unfold pickupDatetimeOwners
  split
  · exact List.Sublist.refl _
  · exact List.filter_sublist

/-- **Routing only leaves owners out**: the result is an order-preserving part of the list
of all owners. -/
theorem eligibleOwners_sublist : (eligibleOwners allOwners query md).Sublist allOwners := by
  unfold eligibleOwners
  split_ifs
  · exact List.Sublist.refl _
  · exact tripDistanceOwners_sublist
  · exact puLocationOwners_sublist
  · exact consistentHashOwners_sublist
  · exact pickupDatetimeOwners_sublist
  · exact List.Sublist.refl _

lemma eligibleOwners_of_other (h1 : md.scheme ≠ "trip_distance") (h2 : md.scheme ≠ "pu_location_id")
    (h3 : md.scheme ≠ "consistent_hash") (h4 : md.scheme ≠ "pickup_datetime") :
    eligibleOwners allOwners query md = allOwners := by
  unfold eligibleOwners
  simp only [beq_iff_eq, if_neg h1, if_neg h2, if_neg h3, if_neg h4, ite_self]

/-- What a row that satisfies a query does under the first predicate on a column. -/
lemma findPred_holds {column : String} {c : Column} (hc : resolveCol column = some c)
    {pred : RangePredicate} (hp : findPred query column = some pred) {r : TaxiRow}
    (hr : satisfies query r = true) : pred.holds (value r c) = true := by
  have hcol : pred.column = column := by simpa using List.find?_some hp
  have h := List.all_eq_true.mp hr pred (List.mem_of_find?_eq_some hp)
  rwa [hcol, hc] at h

lemma satisfies_of_matches {s : PartitionStore} {i : ℕ} (h : s.matches i query = true) :
    i < s.size ∧ s.isValid i = true ∧ satisfies query (s.fill i) = true := by
  rw [s.matches_eq] at h
  simpa using h

end Mini2.Routing
