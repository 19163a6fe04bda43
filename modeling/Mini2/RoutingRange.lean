import Mini2.Routing

/-!
Routing by ranges of trip distances and by lists of pickup zones drops no owner with a
match, however the predicates of the query look.
-/

namespace Mini2.RoutingRange

open Mini2.Proto Mini2.Store Mini2.Trunc Mini2.Routing

variable {N : Type} [DecidableEq N]

/-- The ranges of the manifest bound the trip distances of the shards they are for. -/
def BoundsShards (md : OwnerMetadata N) (shard : N → PartitionStore) : Prop :=
  ∀ o r, md.distRange.lookup o = some r → ∀ i < (shard o).size, (shard o).isValid i = true →
    r.1 ≤ ((shard o).fill i).tripDistance ∧ ((shard o).fill i).tripDistance ≤ r.2

/-- The zones of the manifest list the pickup zones of the shards they are for. -/
def ZonesShards (md : OwnerMetadata N) (shard : N → PartitionStore) : Prop :=
  ∀ o zs, md.zones.lookup o = some zs → ∀ i < (shard o).size, (shard o).isValid i = true →
    ((shard o).fill i).puLocationId ∈ zs

variable {md : OwnerMetadata N} {shard : N → PartitionStore} {query : Query}
  {allOwners : List N} {o : N}

lemma mem_tripDistanceOwners (hb : BoundsShards md shard) (ho : o ∈ allOwners)
    (h : ∃ i, (shard o).matches i query = true) :
    o ∈ tripDistanceOwners allOwners query md := by
  obtain ⟨i, hi⟩ := h
  obtain ⟨hlt, hv, hsat⟩ := satisfies_of_matches hi
  unfold tripDistanceOwners
  cases hp : findPred query "trip_distance" with
  | none => exact ho
  | some pred =>
    refine List.mem_filter.mpr ⟨ho, ?_⟩
    have hold := findPred_holds (resolveCol_name .tripDistance) hp hsat
    have hlow := RangePredicate.low_le hold
    have hhigh := RangePredicate.le_high hold
    cases hl : md.distRange.lookup o with
    | none => rfl
    | some r =>
      obtain ⟨h1, h2⟩ := hb o r hl i hlt hv
      -- the distance of the row lies in both intervals
      have hlo : pred.low ≤ r.2 := hlow.trans h2
      have hhi : r.1 ≤ pred.high := h1.trans hhigh
      simp [not_lt.mpr hlo, not_lt.mpr hhi]

lemma mem_puLocationOwners (hz : ZonesShards md shard) (ho : o ∈ allOwners)
    (h : ∃ i, (shard o).matches i query = true) :
    o ∈ puLocationOwners allOwners query md := by
  obtain ⟨i, hi⟩ := h
  obtain ⟨hlt, hv, hsat⟩ := satisfies_of_matches hi
  unfold puLocationOwners
  cases hp : findPred query "pu_location_id" with
  | none => exact ho
  | some pred =>
    refine List.mem_filter.mpr ⟨ho, ?_⟩
    have hold := findPred_holds (resolveCol_name .puLocationId) hp hsat
    cases hl : md.zones.lookup o with
    | none => rfl
    | some zs =>
      have hmem := hz o zs hl i hlt hv
      -- truncation only widens the window, seen from an integer inside it
      have hlow := trunc_le (RangePredicate.low_le hold)
      have hhigh := le_trunc (RangePredicate.le_high hold)
      exact List.any_eq_true.mpr ⟨_, hmem, by simp [hlow, hhigh]⟩

/-- **Routing by range or by zone is sound.** An owner with a row that satisfies the query
is never dropped, and the result keeps the order of the owners. -/
theorem rangeRouting_sound
    (h : (md.scheme = "trip_distance" ∧ BoundsShards md shard) ∨
      (md.scheme = "pu_location_id" ∧ ZonesShards md shard)) :
    (∀ o ∈ allOwners, (∃ i, (shard o).matches i query = true) →
      o ∈ eligibleOwners allOwners query md) ∧
    (eligibleOwners allOwners query md).Sublist allOwners := by
  refine ⟨fun o ho hm => ?_, eligibleOwners_sublist⟩
  unfold eligibleOwners
  split
  · exact ho
  · rcases h with ⟨hs, hb⟩ | ⟨hs, hz⟩
    · simpa [hs] using mem_tripDistanceOwners hb ho hm
    · simpa [hs] using mem_puLocationOwners hz ho hm

def trip (distance : ℚ) (zone : ℤ) : TaxiRow :=
  ⟨1, 0, 0, 1, distance, 1, zone, 1, false, 1, 0, 0, 0, 0, 0, 0, 0⟩

def twoRanges : OwnerMetadata Bool where
  scheme := "trip_distance"
  distRange := [(false, 0, 2), (true, 2, 9)]

def twoShards (o : Bool) : PartitionStore :=
  PartitionStore.ofRows [trip (if o then 5 / 2 else 1) 7]

lemma twoRanges_bounds : BoundsShards twoRanges twoShards := by
  intro o r hr i hi _
  obtain rfl : i = 0 := by
    simpa [twoShards, PartitionStore.ofRows, PartitionStore.size] using hi
  cases o
  · obtain rfl : ((0 : ℚ), (2 : ℚ)) = r := Option.some.inj hr
    exact ⟨by decide +kernel, by decide +kernel⟩
  · obtain rfl : ((2 : ℚ), (9 : ℚ)) = r := Option.some.inj hr
    exact ⟨by decide +kernel, by decide +kernel⟩

theorem rangeRouting_sound_twoRanges :
    true ∈ eligibleOwners [false, true] ⟨[⟨"trip_distance", 2, 3, false⟩]⟩ twoRanges :=
  (rangeRouting_sound (Or.inl ⟨rfl, twoRanges_bounds⟩)).1 true (by decide)
    ⟨0, by decide +kernel⟩

end Mini2.RoutingRange
