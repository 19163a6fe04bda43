import Mini2.RoutingRange

/-!
Routing by months reduces a window of epoch seconds to the months of its two ends, without
their years. It drops no owner with a match exactly when every month in which the query
admits a row lies between those two; a window inside one calendar year is of this kind, a
window across a new year in general is not.
-/

namespace Mini2.RoutingMonth

open Mini2.Proto Mini2.Store Mini2.Trunc Mini2.Routing Mini2.Calendar

variable {N : Type} [DecidableEq N]

/-- The months of the manifest list the pickup months of the shards they are for. -/
def MonthsShards (md : OwnerMetadata N) (shard : N → PartitionStore) : Prop :=
  ∀ o ms, md.months.lookup o = some ms → ∀ i < (shard o).size, (shard o).isValid i = true →
    monthOfEpoch ((shard o).fill i).pickupDatetime ∈ ms

/-- Routing by months keeps every owner with a row that satisfies the query, for every
list of owners and every manifest that lists the months of the shards. -/
def KeepsMatches (N : Type) [DecidableEq N] (query : Query) : Prop :=
  ∀ (allOwners : List N) (md : OwnerMetadata N) (shard : N → PartitionStore),
    md.scheme = "pickup_datetime" → MonthsShards md shard →
    ∀ o ∈ allOwners, (∃ i, (shard o).matches i query = true) →
      o ∈ eligibleOwners allOwners query md

/-- Every month in which the query admits a row lies between the months of the two ends of
its first pickup window. -/
def MonthsBetween (query : Query) : Prop :=
  ∀ pred, findPred query "pickup_datetime" = some pred → ∀ r, satisfies query r = true →
    min (monthOfEpoch (trunc pred.low)) (monthOfEpoch (trunc pred.high))
      ≤ monthOfEpoch r.pickupDatetime ∧
    monthOfEpoch r.pickupDatetime
      ≤ max (monthOfEpoch (trunc pred.low)) (monthOfEpoch (trunc pred.high))

def yearOfEpoch (epoch : ℤ) : ℤ := yearOf (epoch / 86400)

/-- A window inside one calendar year admits only months between those of its ends. -/
theorem monthsBetween_of_sameYear {query : Query}
    (h : ∀ pred, findPred query "pickup_datetime" = some pred →
      yearOfEpoch (trunc pred.low) = yearOfEpoch (trunc pred.high)) : MonthsBetween query := by
  intro pred hp r hr
  have hold := findPred_holds (resolveCol_name .pickupDatetime) hp hr
  have hlow : trunc pred.low ≤ r.pickupDatetime := trunc_le (RangePredicate.low_le hold)
  have hhigh : r.pickupDatetime ≤ trunc pred.high := le_trunc (RangePredicate.le_high hold)
  have hd1 : trunc pred.low / 86400 ≤ r.pickupDatetime / 86400 := by omega
  have hd2 : r.pickupDatetime / 86400 ≤ trunc pred.high / 86400 := by omega
  have hy := h pred hp
  unfold yearOfEpoch at hy
  have hy1 := yearOf_mono hd1
  have hy2 := yearOf_mono hd2
  exact ⟨(min_le_left _ _).trans (monthOf_mono hd1 (by omega)),
    (monthOf_mono hd2 (by omega)).trans (le_max_right _ _)⟩

lemma mem_pickupDatetimeOwners {allOwners : List N} {query : Query} {md : OwnerMetadata N}
    {pred : RangePredicate} (hp : findPred query "pickup_datetime" = some pred) {o : N} :
    o ∈ pickupDatetimeOwners allOwners query md ↔
      o ∈ allOwners ∧ ∀ ms, md.months.lookup o = some ms → ∃ m ∈ ms,
        min (monthOfEpoch (trunc pred.low)) (monthOfEpoch (trunc pred.high)) ≤ m ∧
        m ≤ max (monthOfEpoch (trunc pred.low)) (monthOfEpoch (trunc pred.high)) := by
  unfold pickupDatetimeOwners
  simp only [hp]
  have hswap : ∀ a b : ℤ, (if a > b then (b, a) else (a, b)) = (min a b, max a b) := by
    intro a b
    split
    · rw [min_eq_right (by omega), max_eq_left (by omega)]
    · rw [min_eq_left (by omega), max_eq_right (by omega)]
  rw [hswap]
  cases hl : md.months.lookup o with
  | none => simp [hl]
  | some ms => simp [hl]

variable [Inhabited N]

/-- **Routing by months is sound on exactly the queries whose months lie between the two
ends of the window.** -/
theorem keepsMatches_iff (query : Query) : KeepsMatches N query ↔ MonthsBetween query := by
  constructor
  · intro h pred hp r hr
    -- one owner, whose only row is `r` and whose only month is that of `r`
    have hrow : (PartitionStore.ofRows [r]).fill 0 = r := rfl
    have hnil : query.predicates ≠ [] := by
      intro hnil
      simp [findPred, hnil] at hp
    have hmem := h [default]
      { scheme := "pickup_datetime", months := [(default, [monthOfEpoch r.pickupDatetime])] }
      (fun _ => PartitionStore.ofRows [r]) rfl
      (by
        intro o ms hl i hi _
        obtain rfl : i = 0 := by simpa [PartitionStore.ofRows, PartitionStore.size] using hi
        by_cases ho : o = default
        · subst ho
          obtain rfl : [monthOfEpoch r.pickupDatetime] = ms := by simpa using hl
          simp [hrow]
        · simp [List.lookup_cons, beq_false_of_ne ho] at hl)
      default (by simp)
      ⟨0, by rw [PartitionStore.matches_eq, hrow, hr]; rfl⟩
    have hbranch := hmem
    simp only [eligibleOwners, OwnerMetadata.empty] at hbranch
    rw [if_neg (by simp [hnil])] at hbranch
    obtain ⟨-, hb⟩ := (mem_pickupDatetimeOwners hp).mp (by simpa using hbranch)
    obtain ⟨m, hm, h1, h2⟩ := hb [monthOfEpoch r.pickupDatetime] (by simp)
    obtain rfl : m = monthOfEpoch r.pickupDatetime := by simpa using hm
    exact ⟨h1, h2⟩
  · rintro h allOwners md shard hs hshard o ho ⟨i, hi⟩
    obtain ⟨hlt, hv, hsat⟩ := satisfies_of_matches hi
    unfold eligibleOwners
    split
    · exact ho
    · simp only [hs, String.reduceBEq, Bool.false_eq_true, if_false, if_true]
      cases hp : findPred query "pickup_datetime" with
      | none => simpa [pickupDatetimeOwners, hp] using ho
      | some pred =>
        refine (mem_pickupDatetimeOwners hp).mpr ⟨ho, fun ms hms => ?_⟩
        exact ⟨_, hshard o ms hms i hlt hv, h pred hp _ hsat⟩

/-- The window from 1 November 2017 to 10 February 2018. -/
def overNewYear : Query := ⟨[⟨"pickup_datetime", 1509494400, 1518220800, true⟩]⟩

/-- A pickup on 15 December 2017. -/
def december : TaxiRow :=
  ⟨1, 1513296000, 1513296600, 1, 3, 1, 7, 8, false, 1, 0, 0, 0, 0, 0, 0, 0⟩

/-- Two owners: one for December, one for the other months. -/
def byMonth : OwnerMetadata Bool where
  scheme := "pickup_datetime"
  months := [(false, [1, 2, 3, 4, 5, 6, 7, 8, 9, 10, 11]), (true, [12])]

/-- The owner of December is dropped, although the window takes in all of December. -/
theorem overNewYear_drops :
    (PartitionStore.ofRows [december]).matches 0 overNewYear = true ∧
    monthOfEpoch december.pickupDatetime ∈ ([12] : List ℤ) ∧
    true ∉ eligibleOwners [false, true] overNewYear byMonth := by
  decide +kernel

theorem not_keepsMatches_overNewYear : ¬ KeepsMatches Bool overNewYear := by
  intro h
  refine overNewYear_drops.2.2 (h [false, true] byMonth
    (fun o => PartitionStore.ofRows (if o then [december] else [])) rfl ?_ true (by simp)
    ⟨0, overNewYear_drops.1⟩)
  intro o ms hl i hi _
  cases o
  · simp [PartitionStore.ofRows, PartitionStore.size] at hi
  · obtain rfl : i = 0 := by simpa [PartitionStore.ofRows, PartitionStore.size] using hi
    obtain rfl : ([12] : List ℤ) = ms := Option.some.inj hl
    exact overNewYear_drops.2.1

end Mini2.RoutingMonth
