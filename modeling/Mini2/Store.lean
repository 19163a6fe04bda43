import Mathlib.Data.List.Basic
import Mini2.Proto

/-!
The column store of one partition: the row predicate, the parallel range scan, the
per-column range table and the filter in front of the scan.

A scan runs over a static split of the rows into contiguous blocks, one a thread; nothing
it returns depends on the split.
-/

namespace Mini2.Store

open Mini2.Proto

inductive Column
  | vendorId | pickupDatetime | dropoffDatetime | passengerCount | tripDistance | ratecodeId
  | puLocationId | doLocationId | storeAndFwdFlag | paymentType | fareAmount | extra | mtaTax
  | tipAmount | tollsAmount | improvementSurcharge | totalAmount
  deriving DecidableEq

def Column.name : Column → String
  | .vendorId => "vendor_id"
  | .pickupDatetime => "pickup_datetime"
  | .dropoffDatetime => "dropoff_datetime"
  | .passengerCount => "passenger_count"
  | .tripDistance => "trip_distance"
  | .ratecodeId => "ratecode_id"
  | .puLocationId => "pu_location_id"
  | .doLocationId => "do_location_id"
  | .storeAndFwdFlag => "store_and_fwd_flag"
  | .paymentType => "payment_type"
  | .fareAmount => "fare_amount"
  | .extra => "extra"
  | .mtaTax => "mta_tax"
  | .tipAmount => "tip_amount"
  | .tollsAmount => "tolls_amount"
  | .improvementSurcharge => "improvement_surcharge"
  | .totalAmount => "total_amount"

/-- Every column, in the order `compute_column_ranges` visits them. -/
def columns : List Column :=
  [.vendorId, .pickupDatetime, .dropoffDatetime, .passengerCount, .tripDistance, .ratecodeId,
    .puLocationId, .doLocationId, .storeAndFwdFlag, .paymentType, .fareAmount, .extra, .mtaTax,
    .tipAmount, .tollsAmount, .improvementSurcharge, .totalAmount]

def resolveCol (col : String) : Option Column := columns.find? fun c => c.name == col

lemma resolveCol_name (c : Column) : resolveCol c.name = some c := by
  cases c <;> rfl

/-- The value of a row in a column, as a double. -/
def value (r : TaxiRow) : Column → ℚ
  | .vendorId => r.vendorId
  | .pickupDatetime => r.pickupDatetime
  | .dropoffDatetime => r.dropoffDatetime
  | .passengerCount => r.passengerCount
  | .tripDistance => r.tripDistance
  | .ratecodeId => r.ratecodeId
  | .puLocationId => r.puLocationId
  | .doLocationId => r.doLocationId
  | .storeAndFwdFlag => if r.storeAndFwdFlag then 1 else 0
  | .paymentType => r.paymentType
  | .fareAmount => r.fareAmount
  | .extra => r.extra
  | .mtaTax => r.mtaTax
  | .tipAmount => r.tipAmount
  | .tollsAmount => r.tollsAmount
  | .improvementSurcharge => r.improvementSurcharge
  | .totalAmount => r.totalAmount

/-- The columns of a partition, one entry a row, and the range table once it is built. -/
structure PartitionStore where
  vendorId : List ℤ
  pickupDatetime : List ℤ
  dropoffDatetime : List ℤ
  passengerCount : List ℤ
  tripDistance : List ℚ
  ratecodeId : List ℤ
  puLocationId : List ℤ
  doLocationId : List ℤ
  storeAndFwdFlag : List Bool
  paymentType : List ℤ
  fareAmount : List ℚ
  extra : List ℚ
  mtaTax : List ℚ
  tipAmount : List ℚ
  tollsAmount : List ℚ
  improvementSurcharge : List ℚ
  totalAmount : List ℚ
  valid : List Bool
  columnRanges : List (String × ℚ × ℚ)

namespace PartitionStore

def size (s : PartitionStore) : ℕ := s.valid.length

def empty (s : PartitionStore) : Bool := s.valid.isEmpty

def fill (s : PartitionStore) (i : ℕ) : TaxiRow where
  vendorId := s.vendorId.getD i 0
  pickupDatetime := s.pickupDatetime.getD i 0
  dropoffDatetime := s.dropoffDatetime.getD i 0
  passengerCount := s.passengerCount.getD i 0
  tripDistance := s.tripDistance.getD i 0
  ratecodeId := s.ratecodeId.getD i 0
  puLocationId := s.puLocationId.getD i 0
  doLocationId := s.doLocationId.getD i 0
  storeAndFwdFlag := s.storeAndFwdFlag.getD i false
  paymentType := s.paymentType.getD i 0
  fareAmount := s.fareAmount.getD i 0
  extra := s.extra.getD i 0
  mtaTax := s.mtaTax.getD i 0
  tipAmount := s.tipAmount.getD i 0
  tollsAmount := s.tollsAmount.getD i 0
  improvementSurcharge := s.improvementSurcharge.getD i 0
  totalAmount := s.totalAmount.getD i 0

def readVal (s : PartitionStore) (c : Column) (i : ℕ) : ℚ :=
  match c with
  | .vendorId => s.vendorId.getD i 0
  | .pickupDatetime => s.pickupDatetime.getD i 0
  | .dropoffDatetime => s.dropoffDatetime.getD i 0
  | .passengerCount => s.passengerCount.getD i 0
  | .tripDistance => s.tripDistance.getD i 0
  | .ratecodeId => s.ratecodeId.getD i 0
  | .puLocationId => s.puLocationId.getD i 0
  | .doLocationId => s.doLocationId.getD i 0
  | .storeAndFwdFlag => if s.storeAndFwdFlag.getD i false then 1 else 0
  | .paymentType => s.paymentType.getD i 0
  | .fareAmount => s.fareAmount.getD i 0
  | .extra => s.extra.getD i 0
  | .mtaTax => s.mtaTax.getD i 0
  | .tipAmount => s.tipAmount.getD i 0
  | .tollsAmount => s.tollsAmount.getD i 0
  | .improvementSurcharge => s.improvementSurcharge.getD i 0
  | .totalAmount => s.totalAmount.getD i 0

lemma readVal_eq (s : PartitionStore) (c : Column) (i : ℕ) :
    s.readVal c i = value (s.fill i) c := by
  cases c <;> rfl

def isValid (s : PartitionStore) (i : ℕ) : Bool := s.valid.getD i false

/-- The predicate of a single row, with the column looked up by name each time. -/
def «matches» (s : PartitionStore) (i : ℕ) (q : Query) : Bool :=
  if i ≥ s.valid.length || !s.isValid i then false
  else q.predicates.all fun p =>
    match resolveCol p.column with
    | none => false
    | some c => p.holds (s.readVal c i)

end PartitionStore

/-! ### The scan -/

/-- A static split of the rows `0 … n - 1` into contiguous blocks, one a thread. -/
structure Split (n : ℕ) where
  blocks : List (List ℕ)
  flatten : blocks.flatten = List.range n

def Split.single (n : ℕ) : Split n := ⟨[List.range n], by simp⟩

/-- The predicates with their columns resolved; an unknown column fails the query. -/
def resolvePreds (q : Query) : Option (List (Column × RangePredicate)) :=
  q.predicates.mapM fun p => (resolveCol p.column).map fun c => (c, p)

namespace PartitionStore

def scanBlock (s : PartitionStore) (preds : List (Column × RangePredicate))
    (block : List ℕ) : List ℕ :=
  block.filter fun i => s.isValid i && preds.all fun cp => cp.2.holds (s.readVal cp.1 i)

/-- The parallel range scan: the outputs of the threads, in thread order. -/
def rangeSearch (s : PartitionStore) (split : Split s.size) (q : Query) : List ℕ :=
  match resolvePreds q with
  | none => []
  | some preds => (split.blocks.map (s.scanBlock preds)).flatten

end PartitionStore

def satisfies (q : Query) (r : TaxiRow) : Bool :=
  q.predicates.all fun p =>
    match resolveCol p.column with
    | none => false
    | some c => p.holds (value r c)

lemma resolvePreds_none {ps : List RangePredicate} (h : resolvePreds ⟨ps⟩ = none) (r : TaxiRow) :
    satisfies ⟨ps⟩ r = false := by
  induction ps with
  | nil => simp [resolvePreds] at h
  | cons p ps ih =>
    cases hc : resolveCol p.column with
    | none => simp [satisfies, hc]
    | some c =>
      have ht : resolvePreds ⟨ps⟩ = none := by
        cases ht : resolvePreds ⟨ps⟩ with
        | none => rfl
        | some l => simp_all [resolvePreds]
      have := ih ht
      simp only [satisfies, List.all_cons, hc, Bool.and_eq_false_iff] at this ⊢
      exact Or.inr this

lemma resolvePreds_some {ps : List RangePredicate} {l : List (Column × RangePredicate)}
    (h : resolvePreds ⟨ps⟩ = some l) (r : TaxiRow) :
    satisfies ⟨ps⟩ r = l.all fun cp => cp.2.holds (value r cp.1) := by
  induction ps generalizing l with
  | nil =>
    obtain rfl : l = [] := by simpa [resolvePreds] using h.symm
    rfl
  | cons p ps ih =>
    cases hc : resolveCol p.column with
    | none => simp [resolvePreds, hc] at h
    | some c =>
      cases ht : resolvePreds ⟨ps⟩ with
      | none => simp_all [resolvePreds]
      | some l' =>
        have hl : l = (c, p) :: l' := by
          simp only [resolvePreds] at ht
          simp only [resolvePreds, List.mapM_cons, hc, ht] at h
          simpa using h.symm
        have := ih ht
        simp only [satisfies] at this
        simp only [satisfies, hl, List.all_cons, hc, this]

namespace PartitionStore

variable (s : PartitionStore)

lemma matches_eq (i : ℕ) (q : Query) :
    s.matches i q = (decide (i < s.size) && (s.isValid i && satisfies q (s.fill i))) := by
  unfold PartitionStore.matches satisfies size
  simp only [readVal_eq]
  by_cases hi : i < s.valid.length
  · cases hv : s.isValid i <;> simp [hi]
  · simp [hi, Nat.not_lt.mp hi]

/-- **The scan is the row predicate.** Whatever the split, the range scan lists the indices
at which the row predicate holds, in ascending order. -/
theorem rangeSearch_eq (split : Split s.size) (q : Query) :
    s.rangeSearch split q = (List.range s.size).filter fun i => s.matches i q := by
  obtain ⟨ps⟩ := q
  have hm : ∀ i ∈ List.range s.size,
      s.matches i ⟨ps⟩ = (s.isValid i && satisfies ⟨ps⟩ (s.fill i)) := by
    intro i hi
    rw [matches_eq, decide_eq_true (List.mem_range.mp hi), Bool.true_and]
  rw [List.filter_congr hm]
  unfold rangeSearch
  cases hr : resolvePreds ⟨ps⟩ with
  | none => simp [resolvePreds_none hr]
  | some l =>
    have hs : s.scanBlock l = List.filter fun i => s.isValid i && satisfies ⟨ps⟩ (s.fill i) := by
      funext block
      refine List.filter_congr fun i _ => ?_
      rw [resolvePreds_some hr]
      simp only [readVal_eq]
    simp only [hs]
    rw [← List.filter_flatten, split.flatten]

/-! ### The range table -/

/-- The join of two (min, max) summaries; `none` is the summary of no row. -/
def joinRange : Option (ℚ × ℚ) → Option (ℚ × ℚ) → Option (ℚ × ℚ)
  | none, b => b
  | a, none => a
  | some a, some b => some (min a.1 b.1, max a.2 b.2)

/-- The (min, max) of a column over the valid rows of a block. -/
def minmaxBlock (c : Column) (block : List ℕ) : Option (ℚ × ℚ) :=
  ((block.filter s.isValid).map fun i => some (s.readVal c i, s.readVal c i)).foldl joinRange none

/-- The reduction of the threads' summaries. -/
def minmaxCol (split : Split s.size) (c : Column) : Option (ℚ × ℚ) :=
  (split.blocks.map (s.minmaxBlock c)).foldl joinRange none

/-- The range table. A column with no valid row has no entry. -/
def computeColumnRanges (split : Split s.size) : List (String × ℚ × ℚ) :=
  if s.empty then []
  else columns.filterMap fun c => (s.minmaxCol split c).map fun r => (c.name, r)

/-- The filter in front of the scan: some predicate's window misses its column's range. -/
def predicateCanMatch (q : Query) : Bool :=
  if s.columnRanges.isEmpty then true
  else q.predicates.all fun p =>
    match s.columnRanges.lookup p.column with
    | none => true
    | some (lo, hi) => !(p.high < lo || hi < p.low)

/-- A summary takes in a value. -/
def Covers (a : Option (ℚ × ℚ)) (v : ℚ) : Prop := ∃ r, a = some r ∧ r.1 ≤ v ∧ v ≤ r.2

lemma Covers.join_left {a : Option (ℚ × ℚ)} {v : ℚ} (h : Covers a v) (b : Option (ℚ × ℚ)) :
    Covers (joinRange a b) v := by
  obtain ⟨r, rfl, h1, h2⟩ := h
  cases b with
  | none => exact ⟨r, rfl, h1, h2⟩
  | some t => exact ⟨_, rfl, (min_le_left _ _).trans h1, h2.trans (le_max_left _ _)⟩

lemma Covers.join_right {b : Option (ℚ × ℚ)} {v : ℚ} (h : Covers b v) (a : Option (ℚ × ℚ)) :
    Covers (joinRange a b) v := by
  obtain ⟨r, rfl, h1, h2⟩ := h
  cases a with
  | none => exact ⟨r, rfl, h1, h2⟩
  | some t => exact ⟨_, rfl, (min_le_right _ _).trans h1, h2.trans (le_max_right _ _)⟩

lemma Covers.foldl {a : Option (ℚ × ℚ)} {v : ℚ} (h : Covers a v) (l : List (Option (ℚ × ℚ))) :
    Covers (l.foldl joinRange a) v := by
  induction l generalizing a with
  | nil => exact h
  | cons b l ih => exact ih (h.join_left b)

lemma covers_foldl {b : Option (ℚ × ℚ)} {v : ℚ} (h : Covers b v) {l : List (Option (ℚ × ℚ))}
    (hb : b ∈ l) (a : Option (ℚ × ℚ)) : Covers (l.foldl joinRange a) v := by
  induction l generalizing a with
  | nil => simp at hb
  | cons c l ih =>
    rcases List.mem_cons.mp hb with rfl | hb
    · exact (h.join_right a).foldl l
    · exact ih hb _

lemma minmaxBlock_covers {c : Column} {block : List ℕ} {i : ℕ} (hi : i ∈ block)
    (hv : s.isValid i = true) : Covers (s.minmaxBlock c block) (s.readVal c i) := by
  have hself : Covers (some (s.readVal c i, s.readVal c i)) (s.readVal c i) :=
    ⟨_, rfl, le_rfl, le_rfl⟩
  exact covers_foldl hself (List.mem_map.mpr ⟨i, List.mem_filter.mpr ⟨hi, hv⟩, rfl⟩) _

lemma minmaxCol_covers (split : Split s.size) {c : Column} {i : ℕ} (hi : i < s.size)
    (hv : s.isValid i = true) : Covers (s.minmaxCol split c) (s.readVal c i) := by
  have hmem : i ∈ split.blocks.flatten := by rw [split.flatten]; exact List.mem_range.mpr hi
  obtain ⟨block, hb, hib⟩ := List.mem_flatten.mp hmem
  exact covers_foldl (s.minmaxBlock_covers hib hv) (List.mem_map.mpr ⟨block, hb, rfl⟩) _

lemma lookup_columnRanges {split : Split s.size} {col : String} {r : ℚ × ℚ}
    (h : (s.computeColumnRanges split).lookup col = some r) :
    ∃ c, resolveCol col = some c ∧ s.minmaxCol split c = some r := by
  unfold computeColumnRanges at h
  split at h
  · simp at h
  · obtain ⟨l₁, l₂, hl, -⟩ := List.lookup_eq_some_iff.mp h
    have hmem : (col, r) ∈ l₁ ++ (col, r) :: l₂ := by simp
    obtain ⟨c, -, hc⟩ := List.mem_filterMap.mp (hl ▸ hmem)
    obtain ⟨r', hr', he⟩ := Option.map_eq_some_iff.mp hc
    obtain ⟨rfl, rfl⟩ := Prod.mk.inj he
    exact ⟨c, resolveCol_name c, hr'⟩

/-- **The filter never hides a match**: a query it turns away holds of no row. -/
theorem predicateCanMatch_sound {split : Split s.size}
    (hr : s.columnRanges = s.computeColumnRanges split) {q : Query}
    (h : s.predicateCanMatch q = false) (i : ℕ) : s.matches i q = false := by
  by_contra hm
  rw [Bool.not_eq_false, matches_eq, Bool.and_eq_true, Bool.and_eq_true] at hm
  obtain ⟨hi, hv, hsat⟩ := hm
  unfold predicateCanMatch at h
  split at h
  · cases h
  rw [List.all_eq_false] at h
  obtain ⟨p, hp, hf⟩ := h
  cases hl : s.columnRanges.lookup p.column with
  | none => simp [hl] at hf
  | some r =>
    rw [hr] at hl
    obtain ⟨c, hc, hmm⟩ := s.lookup_columnRanges hl
    obtain ⟨r', hr', h1, h2⟩ := s.minmaxCol_covers split (c := c) (of_decide_eq_true hi) hv
    obtain rfl : r = r' := Option.some.inj (hmm.symm.trans hr')
    have hold := List.all_eq_true.mp hsat p hp
    rw [hc] at hold
    simp only [← readVal_eq] at hold
    have hlo := RangePredicate.low_le hold
    have hhi := RangePredicate.le_high hold
    rw [← hr] at hl
    simp only [hl, Bool.not_eq_true, Bool.not_eq_false', Bool.or_eq_true,
      decide_eq_true_eq] at hf
    rcases hf with hf | hf
    · exact absurd (h1.trans hhi) (not_le.mpr hf)
    · exact absurd (hlo.trans h2) (not_le.mpr hf)

/-- The valid rows, in index order. -/
def rows : List TaxiRow := ((List.range s.size).filter s.isValid).map s.fill

lemma map_fill_rangeSearch (split : Split s.size) (q : Query) :
    (s.rangeSearch split q).map s.fill = s.rows.filter (satisfies q) := by
  rw [rangeSearch_eq, rows, List.filter_map, List.filter_filter]
  congr 1
  refine List.filter_congr fun i hi => ?_
  rw [matches_eq, decide_eq_true (List.mem_range.mp hi), Bool.true_and, Bool.and_comm]
  rfl

/-- The number of entries of a column. -/
def columnLength : Column → ℕ
  | .vendorId => s.vendorId.length
  | .pickupDatetime => s.pickupDatetime.length
  | .dropoffDatetime => s.dropoffDatetime.length
  | .passengerCount => s.passengerCount.length
  | .tripDistance => s.tripDistance.length
  | .ratecodeId => s.ratecodeId.length
  | .puLocationId => s.puLocationId.length
  | .doLocationId => s.doLocationId.length
  | .storeAndFwdFlag => s.storeAndFwdFlag.length
  | .paymentType => s.paymentType.length
  | .fareAmount => s.fareAmount.length
  | .extra => s.extra.length
  | .mtaTax => s.mtaTax.length
  | .tipAmount => s.tipAmount.length
  | .tollsAmount => s.tollsAmount.length
  | .improvementSurcharge => s.improvementSurcharge.length
  | .totalAmount => s.totalAmount.length

end PartitionStore

/-- The store of a list of rows, all valid, before its range table is built. -/
def PartitionStore.ofRows (rs : List TaxiRow) : PartitionStore where
  vendorId := rs.map (·.vendorId)
  pickupDatetime := rs.map (·.pickupDatetime)
  dropoffDatetime := rs.map (·.dropoffDatetime)
  passengerCount := rs.map (·.passengerCount)
  tripDistance := rs.map (·.tripDistance)
  ratecodeId := rs.map (·.ratecodeId)
  puLocationId := rs.map (·.puLocationId)
  doLocationId := rs.map (·.doLocationId)
  storeAndFwdFlag := rs.map (·.storeAndFwdFlag)
  paymentType := rs.map (·.paymentType)
  fareAmount := rs.map (·.fareAmount)
  extra := rs.map (·.extra)
  mtaTax := rs.map (·.mtaTax)
  tipAmount := rs.map (·.tipAmount)
  tollsAmount := rs.map (·.tollsAmount)
  improvementSurcharge := rs.map (·.improvementSurcharge)
  totalAmount := rs.map (·.totalAmount)
  valid := rs.map fun _ => true
  columnRanges := []

/-- A store as a node holds it once it serves: the columns have one length, and the range
table has been built over some split of the rows. -/
structure Loaded where
  store : PartitionStore
  split : Split store.size
  aligned : ∀ c, store.columnLength c = store.size
  ranges : store.columnRanges = store.computeColumnRanges split

/-- The store of a list of rows with its range table. -/
def Loaded.ofRows (rs : List TaxiRow) : Loaded where
  store := { PartitionStore.ofRows rs with
    columnRanges := (PartitionStore.ofRows rs).computeColumnRanges (.single _) }
  split := .single _
  aligned c := by cases c <;> simp [PartitionStore.columnLength, PartitionStore.ofRows,
    PartitionStore.size]
  ranges := rfl

end Mini2.Store
