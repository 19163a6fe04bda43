import Mathlib.Data.Fintype.EquivFin
import Mini2.RoutingHash
import Mini2.RoutingMonth
import Mini2.RoutingChecked

/-!
When routing by one reading of the clustering metadata keeps every owner that routing by another
keeps, whatever the owners and the query.
-/

namespace Mini2.RoutingCovers

open Mini2.SortedMap Mini2.Proto Mini2.Trunc Mini2.Routing Mini2.RoutingMonth Mini2.RoutingHash

variable {N : Type} [DecidableEq N]

/-- Every owner selected under the second metadata is selected under the first. -/
def Covers (md' md : OwnerMetadata N) : Prop :=
  ∀ allOwners query, eligibleOwners allOwners query md ⊆ eligibleOwners allOwners query md'

/-! ### Schemes with a table -/

/-- A scheme that routes by a table of the owners, on the column whose name it has. -/
structure Table (N A : Type) where
  column : String
  entries : OwnerMetadata N → List (N × A)
  keep : A → RangePredicate → Prop

/-- The owner has no entry, or there is no predicate on the column, or the entry is kept. -/
def Table.Selects {A : Type} (t : Table N A) (md : OwnerMetadata N) (query : Query) (o : N) :
    Prop :=
  ∀ pred, findPred query t.column = some pred → ∀ e, (t.entries md).lookup o = some e →
    t.keep e pred

def trips : Table N (ℚ × ℚ) :=
  ⟨"trip_distance", OwnerMetadata.distRange, fun r pred => pred.low ≤ r.2 ∧ r.1 ≤ pred.high⟩

def zones : Table N (List ℤ) :=
  ⟨"pu_location_id", OwnerMetadata.zones,
    fun zs pred => ∃ z ∈ zs, trunc pred.low ≤ z ∧ z ≤ trunc pred.high⟩

def months : Table N (List ℤ) :=
  ⟨"pickup_datetime", OwnerMetadata.months, fun ms pred => ∃ m ∈ ms,
    min (monthOfEpoch (trunc pred.low)) (monthOfEpoch (trunc pred.high)) ≤ m ∧
      m ≤ max (monthOfEpoch (trunc pred.low)) (monthOfEpoch (trunc pred.high))⟩

/-- The branch of the scheme is what the table selects. -/
def Table.Routes {A : Type} (t : Table N A) : Prop :=
  ∀ md, md.scheme = t.column → ∀ allOwners query o,
    o ∈ eligibleOwners allOwners query md ↔ o ∈ allOwners ∧ t.Selects md query o

variable {md md' : OwnerMetadata N} {allOwners : List N} {query : Query} {o : N}

lemma findPred_single (pred : RangePredicate) : findPred ⟨[pred]⟩ pred.column = some pred := by
  rw [findPred, List.find?_cons_of_pos (by simp)]

lemma findPred_column {column : String} {pred : RangePredicate}
    (h : findPred query column = some pred) : pred.column = column := by
  simpa using List.find?_some h

omit [DecidableEq N] in
lemma empty_tables (h : md.empty = true) (hscheme : md.scheme ≠ "") :
    md.distRange = [] ∧ md.zones = [] ∧ md.months = [] ∧ md.vnodesPerOwner = 0 := by
  simp only [OwnerMetadata.empty, Bool.or_eq_true, Bool.and_eq_true, List.isEmpty_iff,
    beq_iff_eq, String.isEmpty_iff] at h
  obtain ⟨⟨⟨hdist, hzones⟩, hmonths⟩, hcount⟩ := h.resolve_left hscheme
  exact ⟨hdist, hzones, hmonths, hcount⟩

/-- The guard in front of the branches lets every owner through, and so does the branch. -/
lemma Table.routes_of {A : Type} {t : Table N A} (hscheme : t.column ≠ "")
    (hempty : ∀ md : OwnerMetadata N, md.empty = true → md.scheme ≠ "" → t.entries md = [])
    (branch : OwnerMetadata N → List N → Query → List N)
    (hroute : ∀ md, md.scheme = t.column → ∀ allOwners query,
      eligibleOwners allOwners query md =
        if md.empty || query.predicates.length == 0 then allOwners else branch md allOwners query)
    (hbranch : ∀ md allOwners query o,
      o ∈ branch md allOwners query ↔ o ∈ allOwners ∧ t.Selects md query o) : t.Routes := by
  intro md hs allOwners query o
  rw [hroute md hs]
  split
  · rename_i hguard
    rw [Bool.or_eq_true, beq_iff_eq, List.length_eq_zero_iff] at hguard
    refine ⟨fun ho => ⟨ho, fun pred hp e he => ?_⟩, And.left⟩
    rcases hguard with hguard | hguard
    · rw [hempty md hguard (hs ▸ hscheme)] at he
      exact absurd he (by simp)
    · rw [findPred, hguard] at hp
      exact absurd hp (by simp)
  · exact hbranch md allOwners query o

lemma trips_routes : (trips (N := N)).Routes := by
  refine Table.routes_of (by simp [trips]) (fun md hempty hs => (empty_tables hempty hs).1)
    (fun md allOwners query => tripDistanceOwners allOwners query md)
    (fun md hs allOwners query => ?_) (fun md allOwners query o => ?_)
  · rw [eligibleOwners, hs]
    rfl
  · unfold tripDistanceOwners Table.Selects trips
    cases hp : findPred query "trip_distance" with
    | none => simp
    | some pred =>
      cases he : md.distRange.lookup o with
      | none => simp [he]
      | some e => simp [he]

lemma zones_routes : (zones (N := N)).Routes := by
  refine Table.routes_of (by simp [zones]) (fun md hempty hs => (empty_tables hempty hs).2.1)
    (fun md allOwners query => puLocationOwners allOwners query md)
    (fun md hs allOwners query => ?_) (fun md allOwners query o => ?_)
  · rw [eligibleOwners, hs]
    rfl
  · unfold puLocationOwners Table.Selects zones
    cases hp : findPred query "pu_location_id" with
    | none => simp
    | some pred =>
      cases he : md.zones.lookup o with
      | none => simp [he]
      | some e => simp [he]

lemma months_routes : (months (N := N)).Routes := by
  refine Table.routes_of (by simp [months]) (fun md hempty hs => (empty_tables hempty hs).2.2.1)
    (fun md allOwners query => pickupDatetimeOwners allOwners query md)
    (fun md hs allOwners query => ?_) (fun md allOwners query o => ?_)
  · rw [eligibleOwners, hs]
    rfl
  · cases hp : findPred query "pickup_datetime" with
    | none =>
      unfold pickupDatetimeOwners Table.Selects months
      simp [hp]
    | some pred =>
      rw [mem_pickupDatetimeOwners hp]
      unfold Table.Selects months
      simp [hp]

/-! ### Stripes -/

/-- What consistent hashing goes by: the vnodes are striped over the owners. -/
structure Stripes (N : Type) where
  column : String
  multiplier : ℤ
  perOwner : ℤ
  total : ℤ
  owners : List N

namespace Stripes

variable {M : Type} (s s' : Stripes M)

/-- The counts are there, and owners. -/
def Enabled : Prop := s.perOwner ≠ 0 ∧ s.total ≠ 0 ∧ s.owners ≠ []

/-- The buckets of a window of values, from the first to the last. -/
def buckets (x y : ℚ) : ℤ × ℤ := window (x * s.multiplier) (y * s.multiplier)

/-- There are not too many buckets to look at. -/
def Narrow (x y : ℚ) : Prop := (s.buckets x y).2 - (s.buckets x y).1 + 1 ≤ s.total * 4

/-- The owner of a bucket; the last owner takes what is left over. -/
def owner (b : ℤ) : Option M :=
  s.owners[(min ((fnv1a32 (UInt32.ofInt b)).toNat % s.total / s.perOwner)
    (s.owners.length - 1)).toNat]?

def Hit (x y : ℚ) (o : M) : Prop :=
  ∃ b, (s.buckets x y).1 ≤ b ∧ b ≤ (s.buckets x y).2 ∧ s.owner b = some o

/-- Both look at the same column, and on a window of it at the same owners. -/
def Agrees (x y : ℚ) : Prop :=
  s.Enabled ∧ s.column = s'.column ∧ s.Narrow x y ∧ ∀ o, s.Hit x y o ↔ s'.Hit x y o

variable {s s'}

lemma Hit.mem {x y : ℚ} {o : M} (h : s.Hit x y o) : o ∈ s.owners := by
  obtain ⟨b, -, -, hb⟩ := h
  exact List.mem_of_getElem? hb

end Stripes

/-- The stripes of the metadata. -/
def stripes {M : Type} (md : OwnerMetadata M) : Stripes M :=
  ⟨md.hashColumn, md.hashBucketMultiplier, md.vnodesPerOwner, md.totalVnodes, md.ownersOrder⟩

omit [DecidableEq N] in
lemma bucketOwner_stripes (b : ℤ) : bucketOwner md b = (stripes md).owner b := by
  have hmin : ∀ i n : ℤ, (if i ≥ n then n - 1 else i) = min i (n - 1) := by
    intro i n
    split <;> omega
  unfold bucketOwner Stripes.owner stripes
  dsimp only
  rw [hmin]

lemma consistentHashOwners_window (hen : (stripes md).Enabled) {pred : RangePredicate}
    (hp : findPred query md.hashColumn = some pred) :
    consistentHashOwners allOwners query md =
      if ((stripes md).buckets pred.low pred.high).2 -
          ((stripes md).buckets pred.low pred.high).1 + 1 > md.totalVnodes * 4 then allOwners
      else
        let out := allOwners.filter fun o => o ∈ hitLoop md
          (((stripes md).buckets pred.low pred.high).2 -
            ((stripes md).buckets pred.low pred.high).1 + 1).toNat
          ((stripes md).buckets pred.low pred.high).1 ∅
        if out.isEmpty then allOwners else out := by
  obtain ⟨hv, ht, hne⟩ := hen
  have hguard : ¬ (md.vnodesPerOwner == 0 || md.totalVnodes == 0 ||
      md.ownersOrder.isEmpty) = true := by
    simp only [Bool.or_eq_true, beq_iff_eq, List.isEmpty_iff, not_or]
    exact ⟨⟨hv, ht⟩, hne⟩
  obtain ⟨hfirst, hlast⟩ := ordered_eq (pred.low * md.hashBucketMultiplier)
    (pred.high * md.hashBucketMultiplier) rfl
  unfold consistentHashOwners Stripes.buckets stripes
  rw [if_neg hguard, hp]
  dsimp only
  rw [← hfirst, ← hlast]

/-- A window that hits no owner of the list is no help, and one that is too wide neither. -/
lemma mem_consistentHashOwners : o ∈ consistentHashOwners allOwners query md ↔ o ∈ allOwners ∧
    ∀ pred, findPred query md.hashColumn = some pred → (stripes md).Enabled →
      (stripes md).Narrow pred.low pred.high →
        (stripes md).Hit pred.low pred.high o ∨
          ∀ z ∈ allOwners, ¬ (stripes md).Hit pred.low pred.high z := by
  by_cases hen : (stripes md).Enabled
  · cases hp : findPred query md.hashColumn with
    | none =>
      have hall : consistentHashOwners allOwners query md = allOwners := by
        unfold consistentHashOwners
        rw [hp]
        exact ite_self _
      simp [hall]
    | some pred =>
      obtain ⟨lo, hlo⟩ : ∃ lo, ((stripes md).buckets pred.low pred.high).1 = lo := ⟨_, rfl⟩
      obtain ⟨hi, hhi⟩ : ∃ hi, ((stripes md).buckets pred.low pred.high).2 = hi := ⟨_, rfl⟩
      have hhit : ∀ z, z ∈ hitLoop md (hi - lo + 1).toNat lo ∅ ↔
          (stripes md).Hit pred.low pred.high z := by
        intro z
        rw [mem_hitLoop_bucketOwner _ _ _ (by simp), Stripes.Hit, hlo, hhi]
        constructor
        · rintro (hz | ⟨b, h1, h2, hb⟩)
          · exact absurd hz (Finset.notMem_empty z)
          · exact ⟨b, h1, by omega, bucketOwner_stripes b ▸ hb⟩
        · rintro ⟨b, h1, h2, hb⟩
          exact .inr ⟨b, h1, by omega, (bucketOwner_stripes b).trans hb⟩
      have hwidth : (stripes md).Narrow pred.low pred.high ↔ hi - lo + 1 ≤ md.totalVnodes * 4 := by
        rw [Stripes.Narrow, hlo, hhi]
        rfl
      rw [consistentHashOwners_window hen hp, hlo, hhi]
      by_cases hwide : hi - lo + 1 > md.totalVnodes * 4
      · rw [if_pos hwide]
        refine ⟨fun ho => ⟨ho, fun pred' hp' _ hnarrow => ?_⟩, And.left⟩
        obtain rfl := Option.some.inj hp'
        exact absurd (hwidth.mp hnarrow) (not_le.mpr hwide)
      · have hnarrow : (stripes md).Narrow pred.low pred.high := hwidth.mpr (not_lt.mp hwide)
        rw [if_neg hwide]
        by_cases hnone : ∀ z ∈ allOwners, ¬ (stripes md).Hit pred.low pred.high z
        · have hempty : (allOwners.filter fun o => o ∈ hitLoop md (hi - lo + 1).toNat lo ∅) = [] :=
            List.filter_eq_nil_iff.mpr fun z hz => by simp [hhit, hnone z hz]
          rw [hempty]
          refine ⟨fun ho => ⟨ho, fun pred' hp' _ _ => ?_⟩, And.left⟩
          obtain rfl := Option.some.inj hp'
          exact .inr hnone
        · have hsome : ¬ (allOwners.filter fun o =>
              o ∈ hitLoop md (hi - lo + 1).toNat lo ∅).isEmpty = true := by
            rw [List.isEmpty_iff, List.filter_eq_nil_iff]
            simpa [hhit] using hnone
          dsimp only
          rw [if_neg hsome, List.mem_filter, decide_eq_true_eq, hhit]
          refine and_congr_right fun _ => ⟨fun ho pred' hp' _ _ => ?_, fun h => ?_⟩
          · obtain rfl := Option.some.inj hp'
            exact .inl ho
          · exact (h pred rfl hen hnarrow).resolve_right hnone
  · have hall : consistentHashOwners allOwners query md = allOwners := by
      unfold consistentHashOwners
      refine if_pos ?_
      by_contra hguard
      simp only [Bool.or_eq_true, beq_iff_eq, List.isEmpty_iff, not_or] at hguard
      exact hen ⟨hguard.1.1, hguard.1.2, hguard.2⟩
    rw [hall]
    exact ⟨fun ho => ⟨ho, fun _ _ hen' => absurd hen' hen⟩, And.left⟩

lemma mem_hash (hs : md.scheme = "consistent_hash") :
    o ∈ eligibleOwners allOwners query md ↔ o ∈ allOwners ∧
      ∀ pred, findPred query md.hashColumn = some pred → (stripes md).Enabled →
        (stripes md).Narrow pred.low pred.high →
          (stripes md).Hit pred.low pred.high o ∨
            ∀ z ∈ allOwners, ¬ (stripes md).Hit pred.low pred.high z := by
  have hroute : eligibleOwners allOwners query md =
      if md.empty || query.predicates.length == 0 then allOwners
      else consistentHashOwners allOwners query md := by
    rw [eligibleOwners, hs]
    rfl
  rw [hroute]
  split
  · rename_i hguard
    rw [Bool.or_eq_true, beq_iff_eq, List.length_eq_zero_iff] at hguard
    refine ⟨fun ho => ⟨ho, fun pred hp hen => ?_⟩, And.left⟩
    rcases hguard with hguard | hguard
    · have hcount := (empty_tables hguard (by rw [hs]; simp)).2.2.2
      exact absurd hcount hen.1
    · rw [findPred, hguard] at hp
      exact absurd hp (by simp)
  · exact mem_consistentHashOwners

/-! ### What covers what -/

/-- An owner on its own is kept, unless a table of the scheme says otherwise of the column. -/
lemma singleton_kept {pred : RangePredicate}
    (hcolumn : pred.column ∈ ["trip_distance", "pu_location_id", "pickup_datetime"])
    (hs : md.scheme ≠ pred.column) (o : N) : o ∈ eligibleOwners [o] ⟨[pred]⟩ md := by
  have hother : ∀ {A : Type} {t : Table N A}, t.Routes → md.scheme = t.column →
      o ∈ eligibleOwners [o] ⟨[pred]⟩ md := by
    intro A t ht htable
    refine (ht md htable _ _ _).mpr ⟨List.mem_singleton_self o, fun pred' hp => ?_⟩
    have hmem := List.mem_of_find?_eq_some hp
    obtain rfl : pred' = pred := List.mem_singleton.mp hmem
    exact absurd (htable.trans (findPred_column hp).symm) hs
  by_cases htrips : md.scheme = "trip_distance"
  · exact hother trips_routes htrips
  by_cases hzones : md.scheme = "pu_location_id"
  · exact hother zones_routes hzones
  by_cases hmonths : md.scheme = "pickup_datetime"
  · exact hother months_routes hmonths
  by_cases hhash : md.scheme = "consistent_hash"
  · refine (mem_hash hhash).mpr ⟨List.mem_singleton_self o, fun pred' _ _ _ => ?_⟩
    simp only [List.mem_singleton, forall_eq]
    exact em _
  rw [eligibleOwners_of_other htrips hzones hhash hmonths]
  exact List.mem_singleton_self o

/-- **By a table**: what an entry lets through under the second metadata, it must let through
under the first. -/
lemma Table.covers_iff {A : Type} {t : Table N A} (ht : t.Routes)
    (hcolumn : t.column ∈ ["trip_distance", "pu_location_id", "pickup_datetime"])
    (hs : md'.scheme = t.column) :
    Covers md' md ↔ ∀ o e', (t.entries md').lookup o = some e' →
      ∀ pred : RangePredicate, pred.column = t.column →
        (md.scheme = t.column → ∀ e, (t.entries md).lookup o = some e → t.keep e pred) →
          t.keep e' pred := by
  constructor
  · intro h o e' he' pred hpred hkeep
    have hsingle : findPred ⟨[pred]⟩ t.column = some pred := hpred ▸ findPred_single pred
    have ho : o ∈ eligibleOwners [o] ⟨[pred]⟩ md := by
      by_cases hscheme : md.scheme = t.column
      · refine (ht md hscheme _ _ _).mpr ⟨List.mem_singleton_self o, fun pred' hp e he => ?_⟩
        obtain rfl := Option.some.inj (hsingle.symm.trans hp)
        exact hkeep hscheme e he
      · exact singleton_kept (hpred ▸ hcolumn) (hpred ▸ hscheme) o
    exact ((ht md' hs _ _ _).mp (h _ _ ho)).2 pred hsingle e' he'
  · intro h allOwners query o ho
    refine (ht md' hs _ _ _).mpr ⟨eligibleOwners_sublist.subset ho, fun pred hp e' he' => ?_⟩
    refine h o e' he' pred (findPred_column hp) fun hscheme e he => ?_
    exact ((ht md hscheme _ _ _).mp ho).2 pred hp e he

lemma covers_trips (hs : md'.scheme = "trip_distance") :
    Covers md' md ↔ ∀ o e', md'.distRange.lookup o = some e' →
      md.scheme = "trip_distance" ∧
        ∃ e, md.distRange.lookup o = some e ∧ e'.1 ≤ e.1 ∧ e.2 ≤ e'.2 := by
  rw [Table.covers_iff trips_routes (by simp [trips]) hs]
  refine forall_congr' fun o => forall_congr' fun e' => forall_congr' fun he' => ?_
  constructor
  · intro h
    by_cases hentry : md.scheme = "trip_distance" ∧ ∃ e, md.distRange.lookup o = some e
    · obtain ⟨hscheme, e, he⟩ := hentry
      -- the query whose window the range just meets at both ends
      obtain ⟨hhigh, hlow⟩ := h ⟨"trip_distance", e.2, e.1, true⟩ rfl fun _ e₁ he₁ => by
        obtain rfl : e = e₁ := Option.some.inj (he.symm.trans he₁)
        exact ⟨le_rfl, le_rfl⟩
      exact ⟨hscheme, e, he, hlow, hhigh⟩
    · -- without an entry the owner is kept, also for a window beyond the range
      obtain ⟨hhigh, -⟩ := h ⟨"trip_distance", e'.2 + 1, e'.2 + 1, true⟩ rfl fun hscheme e he =>
        absurd ⟨hscheme, e, he⟩ hentry
      exact absurd hhigh (by simp)
  · rintro ⟨hscheme, e, he, hlow, hhigh⟩ pred - hkeep
    obtain ⟨hle, hge⟩ := hkeep hscheme e he
    exact ⟨hle.trans hhigh, hlow.trans hge⟩

lemma covers_zones (hs : md'.scheme = "pu_location_id") :
    Covers md' md ↔ ∀ o zs', md'.zones.lookup o = some zs' →
      md.scheme = "pu_location_id" ∧ ∃ zs, md.zones.lookup o = some zs ∧ ∀ z ∈ zs, z ∈ zs' := by
  rw [Table.covers_iff zones_routes (by simp [zones]) hs]
  refine forall_congr' fun o => forall_congr' fun zs' => forall_congr' fun hzs' => ?_
  -- a window with one zone
  have hone : ∀ (zs : List ℤ) (z : ℤ),
      zones.keep (N := N) zs ⟨"pu_location_id", z, z, true⟩ ↔ z ∈ zs := by
    intro zs z
    have htrunc : trunc (z : ℚ) = z := Machine.trunc_intCast z
    constructor
    · rintro ⟨y, hy, hle, hge⟩
      dsimp only at hle hge
      obtain rfl : y = z := by omega
      exact hy
    · exact fun hz => ⟨z, hz, htrunc.le, htrunc.ge⟩
  constructor
  · intro h
    by_cases hentry : md.scheme = "pu_location_id" ∧ ∃ zs, md.zones.lookup o = some zs
    · obtain ⟨hscheme, zs, hzs⟩ := hentry
      refine ⟨hscheme, zs, hzs, fun z hz => ?_⟩
      have hwindow := h ⟨"pu_location_id", z, z, true⟩ rfl fun _ zs₁ hzs₁ => by
        obtain rfl : zs = zs₁ := Option.some.inj (hzs.symm.trans hzs₁)
        exact (hone zs z).mpr hz
      exact (hone zs' z).mp hwindow
    · obtain ⟨z, hz⟩ := Infinite.exists_notMem_finset zs'.toFinset
      have hwindow := h ⟨"pu_location_id", z, z, true⟩ rfl fun hscheme zs hzs =>
        absurd ⟨hscheme, zs, hzs⟩ hentry
      exact absurd (List.mem_toFinset.mpr ((hone zs' z).mp hwindow)) hz
  · rintro ⟨hscheme, zs, hzs, hsub⟩ pred - hkeep
    obtain ⟨z, hz, hle, hge⟩ := hkeep hscheme zs hzs
    exact ⟨z, hsub z hz, hle, hge⟩

lemma covers_months (hs : md'.scheme = "pickup_datetime") :
    Covers md' md ↔ ∀ o ms', md'.months.lookup o = some ms' → ∀ m : ℤ, 1 ≤ m → m ≤ 12 →
      (md.scheme = "pickup_datetime" → ∀ ms, md.months.lookup o = some ms → m ∈ ms) →
        m ∈ ms' := by
  rw [Table.covers_iff months_routes (by simp [months]) hs]
  refine forall_congr' fun o => forall_congr' fun ms' => forall_congr' fun hms' => ?_
  constructor
  · intro h m h1 h12 hm
    obtain ⟨d, hd⟩ := Calendar.exists_monthOf h1 h12
    -- a window on one day of the month
    have hmonth : monthOfEpoch (trunc ((d * 86400 : ℤ) : ℚ)) = m := by
      rw [Machine.trunc_intCast, monthOfEpoch, Int.mul_ediv_cancel _ (by omega), hd]
    have hone : ∀ ms : List ℤ, months.keep (N := N) ms
        ⟨"pickup_datetime", (d * 86400 : ℤ), (d * 86400 : ℤ), true⟩ ↔ m ∈ ms := by
      intro ms
      dsimp only [months]
      rw [hmonth]
      constructor
      · rintro ⟨y, hy, hle, hge⟩
        obtain rfl : y = m := by omega
        exact hy
      · exact fun hm => ⟨m, hm, by omega, by omega⟩
    exact (hone ms').mp (h _ rfl fun hscheme ms hms => (hone ms).mpr (hm hscheme ms hms))
  · rintro h pred - hkeep
    obtain ⟨hlo1, hlo12⟩ := Calendar.monthOf_bounds (trunc pred.low / 86400)
    obtain ⟨hhi1, hhi12⟩ := Calendar.monthOf_bounds (trunc pred.high / 86400)
    dsimp only [months] at hkeep ⊢
    unfold monthOfEpoch at hkeep ⊢
    by_cases hentry : md.scheme = "pickup_datetime" ∧ ∃ ms, md.months.lookup o = some ms
    · obtain ⟨hscheme, ms, hms⟩ := hentry
      obtain ⟨m, hm, hle, hge⟩ := hkeep hscheme ms hms
      refine ⟨m, h m (by omega) (by omega) fun _ ms₁ hms₁ => ?_, hle, hge⟩
      obtain rfl : ms = ms₁ := Option.some.inj (hms.symm.trans hms₁)
      exact hm
    · have hall := h (Calendar.monthOf (trunc pred.low / 86400)) hlo1 hlo12
        fun hscheme ms hms => absurd ⟨hscheme, ms, hms⟩ hentry
      exact ⟨_, hall, min_le_left _ _, le_max_left _ _⟩

lemma fresh_kept (hs : md.scheme ≠ "consistent_hash") (ho : o ∈ allOwners)
    (hdist : md.distRange.lookup o = none) (hzones : md.zones.lookup o = none)
    (hmonths : md.months.lookup o = none) : o ∈ eligibleOwners allOwners query md := by
  have htable : ∀ {A : Type} {t : Table N A}, t.Routes → (t.entries md).lookup o = none →
      md.scheme = t.column → o ∈ eligibleOwners allOwners query md := by
    intro A t ht hnone hscheme
    refine (ht md hscheme _ _ _).mpr ⟨ho, fun pred hp e he => ?_⟩
    rw [hnone] at he
    exact absurd he (by simp)
  by_cases h1 : md.scheme = "trip_distance"
  · exact htable trips_routes hdist h1
  by_cases h2 : md.scheme = "pu_location_id"
  · exact htable zones_routes hzones h2
  by_cases h3 : md.scheme = "pickup_datetime"
  · exact htable months_routes hmonths h3
  rw [eligibleOwners_of_other h1 h2 hs h3]
  exact ho

variable [Infinite N]

/-- Wherever the first metadata look at few buckets and find an owner, the second must find the
same owners: any other owner, also one that neither knows, may be in the list. -/
lemma covers_hash (hs : md'.scheme = "consistent_hash") :
    Covers md' md ↔ ((stripes md').Enabled → ∀ x y, (stripes md').Narrow x y →
      (∃ o, (stripes md').Hit x y o) →
        md.scheme = "consistent_hash" ∧ (stripes md).Agrees (stripes md') x y) := by
  constructor
  · rintro h hen x y hnarrow ⟨z, hz⟩
    obtain ⟨pred, hpred⟩ : ∃ pred : RangePredicate, pred = ⟨md'.hashColumn, x, y, true⟩ := ⟨_, rfl⟩
    have hcolumn : pred.column = md'.hashColumn := by rw [hpred]
    have hx : pred.low = x := by rw [hpred]
    have hy : pred.high = y := by rw [hpred]
    have hsingle : findPred ⟨[pred]⟩ md'.hashColumn = some pred := hcolumn ▸ findPred_single pred
    -- the owners that are hit crowd out all others
    have hcrowd : ∀ {L : List N} {z o : N}, (stripes md').Hit x y z → z ∈ L →
        o ∈ eligibleOwners L ⟨[pred]⟩ md → (stripes md').Hit x y o := by
      intro L z o hz hzL ho
      have hkept := ((mem_hash hs).mp (h _ _ ho)).2 pred hsingle hen
      rw [hx, hy] at hkept
      exact (hkept hnarrow).resolve_right fun hnone => hnone z hzL hz
    obtain ⟨f, hf⟩ := Infinite.exists_notMem_finset (md.ownersOrder ++ md'.ownersOrder ++
      md.distRange.map Prod.fst ++ md.zones.map Prod.fst ++ md.months.map Prod.fst).toFinset
    simp only [List.mem_toFinset, List.mem_append, not_or] at hf
    obtain ⟨⟨⟨⟨howners, howners'⟩, hdist⟩, hzones⟩, hmonths⟩ := hf
    have hmissing : ¬ (stripes md').Hit x y f := fun hf => howners' hf.mem
    have hdropped : f ∉ eligibleOwners [f, z] ⟨[pred]⟩ md := fun ho =>
      hmissing (hcrowd hz (by simp) ho)
    obtain ⟨hscheme, hen', hcol, hnarrow'⟩ : md.scheme = "consistent_hash" ∧
        (stripes md).Enabled ∧ md.hashColumn = md'.hashColumn ∧ (stripes md).Narrow x y := by
      by_contra hnot
      apply hdropped
      by_cases hscheme : md.scheme = "consistent_hash"
      · refine (mem_hash hscheme).mpr ⟨by simp, fun pred' hp hen' hnarrow' => ?_⟩
        obtain rfl : pred' = pred := List.mem_singleton.mp (List.mem_of_find?_eq_some hp)
        rw [hx, hy] at hnarrow'
        exact absurd ⟨hscheme, hen', (findPred_column hp).symm.trans hcolumn, hnarrow'⟩ hnot
      · exact fresh_kept hscheme (by simp) (lookup_none hdist) (lookup_none hzones)
          (lookup_none hmonths)
    have hkept : ∀ {L : List N} {o : N}, o ∈ L →
        ((stripes md).Hit x y o ∨ ∀ w ∈ L, ¬ (stripes md).Hit x y w) →
          o ∈ eligibleOwners L ⟨[pred]⟩ md := by
      intro L o ho hhit
      refine (mem_hash hscheme).mpr ⟨ho, fun pred' hp _ _ => ?_⟩
      obtain rfl : pred' = pred := List.mem_singleton.mp (List.mem_of_find?_eq_some hp)
      rw [hx, hy]
      exact hhit
    refine ⟨hscheme, hen', hcol, hnarrow', fun o => ⟨fun ho => ?_, fun ho => ?_⟩⟩
    · -- next to `z`
      have hlist : o ∈ eligibleOwners [o, z] ⟨[pred]⟩ md := hkept (by simp) (.inl ho)
      exact hcrowd hz (by simp) hlist
    · -- next to `f`
      by_contra hnot
      have hnone : ∀ w ∈ [f, o], ¬ (stripes md).Hit x y w := by
        intro w hw
        rcases List.mem_pair.mp hw with rfl | rfl
        · exact fun hw => howners hw.mem
        · exact hnot
      have hlist : f ∈ eligibleOwners [f, o] ⟨[pred]⟩ md := hkept (by simp) (.inr hnone)
      exact hmissing (hcrowd ho (by simp) hlist)
  · intro h allOwners query o ho
    refine (mem_hash hs).mpr ⟨eligibleOwners_sublist.subset ho, fun pred hp hen hnarrow => ?_⟩
    by_cases hz : ∃ z, (stripes md').Hit pred.low pred.high z
    · obtain ⟨hscheme, hen', hcolumn, hnarrow', hhit⟩ := h hen _ _ hnarrow hz
      have hp' : findPred query md.hashColumn = some pred := by
        rw [← hp]
        exact congrArg _ hcolumn
      refine (((mem_hash hscheme).mp ho).2 pred hp' hen' hnarrow').imp (hhit o).mp ?_
      exact fun hnone z hzL hz => hnone z hzL ((hhit z).mpr hz)
    · exact .inr fun z _ hhit => hz ⟨z, hhit⟩

end Mini2.RoutingCovers
