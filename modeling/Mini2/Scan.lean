import Mini2.Store

/-!
The range scan as its loop runs: the columns of the query are resolved once, to a data pointer
and the kind of its cells, and a cell becomes a double when it is read. All that is used of the
doubles is how an integer is cast to one and how two compare: NaN and rounded integers are in.
-/

namespace Mini2.Scan

open Mini2.Store (Split Column)

/-- A data pointer and the kind of the cells behind it. Without cells it is null. -/
inductive ColRef (D : Type)
  | i32 (data : List ℤ)
  | i64 (data : List ℤ)
  | f64 (data : List D)
  | u8 (data : List ℕ)

def ColRef.null {D : Type} : ColRef D → Bool
  | .i32 data => data.isEmpty
  | .i64 data => data.isEmpty
  | .f64 data => data.isEmpty
  | .u8 data => data.isEmpty

structure RangePredicate (D : Type) where
  column : String
  low : D
  high : D
  inclusive : Bool

structure Query (D : Type) where
  predicates : List (RangePredicate D)

structure PartitionStore (D : Type) where
  vendorId : List ℤ
  pickupDatetime : List ℤ
  dropoffDatetime : List ℤ
  passengerCount : List ℤ
  tripDistance : List D
  ratecodeId : List ℤ
  puLocationId : List ℤ
  doLocationId : List ℤ
  storeAndFwdFlag : List ℕ
  paymentType : List ℤ
  fareAmount : List D
  extra : List D
  mtaTax : List D
  tipAmount : List D
  tollsAmount : List D
  improvementSurcharge : List D
  totalAmount : List D
  valid : List ℕ

variable {D : Type}

def resolveCol (s : PartitionStore D) (col : String) : ColRef D :=
  if col = "vendor_id" then .i32 s.vendorId
  else if col = "pickup_datetime" then .i64 s.pickupDatetime
  else if col = "dropoff_datetime" then .i64 s.dropoffDatetime
  else if col = "passenger_count" then .i32 s.passengerCount
  else if col = "trip_distance" then .f64 s.tripDistance
  else if col = "ratecode_id" then .i32 s.ratecodeId
  else if col = "pu_location_id" then .i32 s.puLocationId
  else if col = "do_location_id" then .i32 s.doLocationId
  else if col = "store_and_fwd_flag" then .u8 s.storeAndFwdFlag
  else if col = "payment_type" then .i32 s.paymentType
  else if col = "fare_amount" then .f64 s.fareAmount
  else if col = "extra" then .f64 s.extra
  else if col = "mta_tax" then .f64 s.mtaTax
  else if col = "tip_amount" then .f64 s.tipAmount
  else if col = "tolls_amount" then .f64 s.tollsAmount
  else if col = "improvement_surcharge" then .f64 s.improvementSurcharge
  else if col = "total_amount" then .f64 s.totalAmount
  else .i32 []

variable [IntCast D]

def readVal (r : ColRef D) (i : ℕ) : D :=
  match r with
  | .f64 data => data.getD i ((0 : ℤ) : D)
  | .i64 data => ((data.getD i 0 : ℤ) : D)
  | .i32 data => ((data.getD i 0 : ℤ) : D)
  | .u8 data => (((data.getD i 0 : ℕ) : ℤ) : D)

variable [LE D] [LT D] [DecidableLE D] [DecidableLT D]

/-- The comparison both the row predicate and the scan make. -/
def hit (low high : D) (inclusive : Bool) (v : D) : Bool :=
  if inclusive then decide (v ≥ low) && decide (v ≤ high)
  else decide (v > low) && decide (v < high)

namespace PartitionStore

def size (s : PartitionStore D) : ℕ := s.valid.length

def isValid (s : PartitionStore D) (i : ℕ) : Bool := s.valid.getD i 0 != 0

/-- The loop over the predicates of one row. -/
def matchesAll (s : PartitionStore D) (i : ℕ) : List (RangePredicate D) → Bool
  | [] => true
  | p :: ps =>
    let r := resolveCol s p.column
    if r.null then false
    else if !hit p.low p.high p.inclusive (readVal r i) then false
    else matchesAll s i ps

def «matches» (s : PartitionStore D) (i : ℕ) (q : Query D) : Bool :=
  if i ≥ s.size || !s.isValid i then false else matchesAll s i q.predicates

end PartitionStore

structure ResolvedPred (D : Type) where
  col : ColRef D
  low : D
  high : D
  inclusive : Bool

/-- The loop that resolves the columns; it gives up at an unknown one. -/
def resolve (s : PartitionStore D) : List (RangePredicate D) → Option (List (ResolvedPred D))
  | [] => some []
  | p :: ps =>
    let cr := resolveCol s p.column
    if cr.null then none
    else (resolve s ps).map (⟨cr, p.low, p.high, p.inclusive⟩ :: ·)

/-- The loop over the resolved predicates of one row. -/
def hitsAll (i : ℕ) : List (ResolvedPred D) → Bool
  | [] => true
  | pr :: prs =>
    if !hit pr.low pr.high pr.inclusive (readVal pr.col i) then false else hitsAll i prs

namespace PartitionStore

def scanBlock (s : PartitionStore D) (preds : List (ResolvedPred D)) : List ℕ → List ℕ
  | [] => []
  | i :: block =>
    if !s.isValid i then scanBlock s preds block
    else if hitsAll i preds then i :: scanBlock s preds block
    else scanBlock s preds block

/-- The buffers of the threads, in the order of the threads. -/
def rangeSearch (s : PartitionStore D) (split : Split s.size) (q : Query D) : List ℕ :=
  if s.size = 0 then []
  else
    match resolve s q.predicates with
    | none => []
    | some preds => (split.blocks.map (s.scanBlock preds)).flatten

end PartitionStore

open PartitionStore

variable (s : PartitionStore D)

lemma scanBlock_eq (preds : List (ResolvedPred D)) (block : List ℕ) :
    s.scanBlock preds block = block.filter fun i => s.isValid i && hitsAll i preds := by
  induction block with
  | nil => rfl
  | cons i block ih =>
    rw [scanBlock, ih, List.filter_cons]
    cases s.isValid i <;> cases hitsAll i preds <;> rfl

lemma resolve_none {ps : List (RangePredicate D)} (h : resolve s ps = none) (i : ℕ) :
    s.matchesAll i ps = false := by
  induction ps with
  | nil => cases h
  | cons p ps ih =>
    unfold resolve at h
    unfold matchesAll
    simp only at h ⊢
    split at h
    next hnull => rw [if_pos hnull]
    next hnull =>
      rw [if_neg hnull, ih (Option.map_eq_none_iff.mp h)]
      exact ite_self false

lemma resolve_some {ps : List (RangePredicate D)} {prs : List (ResolvedPred D)}
    (h : resolve s ps = some prs) (i : ℕ) : hitsAll i prs = s.matchesAll i ps := by
  induction ps generalizing prs with
  | nil =>
    obtain rfl : prs = [] := (Option.some.inj h).symm
    rfl
  | cons p ps ih =>
    unfold resolve at h
    unfold matchesAll
    simp only at h ⊢
    split at h
    · cases h
    next hnull =>
      obtain ⟨prs', hprs, rfl⟩ := Option.map_eq_some_iff.mp h
      rw [if_neg hnull, hitsAll, ih hprs]

lemma rangeSearch_eq_filter (split : Split s.size) (q : Query D) :
    s.rangeSearch split q = (List.range s.size).filter fun i => s.matches i q := by
  have hm : ∀ i ∈ List.range s.size,
      s.matches i q = (s.isValid i && s.matchesAll i q.predicates) := by
    intro i hi
    have hlt := List.mem_range.mp hi
    unfold PartitionStore.matches
    cases s.isValid i <;> simp [hlt]
  rw [List.filter_congr hm]
  unfold PartitionStore.rangeSearch
  split
  next hn => simp [hn]
  next =>
    cases hr : resolve s q.predicates with
    | none => simp [resolve_none s hr]
    | some preds =>
      have hblocks : s.scanBlock preds =
          List.filter fun i => s.isValid i && s.matchesAll i q.predicates := by
        funext block
        rw [scanBlock_eq]
        refine List.filter_congr fun i _ => ?_
        rw [resolve_some s hr]
      simp only [hblocks]
      rw [← List.filter_flatten, split.flatten]

/-- **The parallel scan is the row predicate.** However the rows are split among threads, the
scan returns the ascending list of the indices at which the row predicate holds. -/
theorem rangeSearch_iff_matches (split : Split s.size) (q : Query D) :
    (s.rangeSearch split q).Pairwise (· < ·) ∧
      ∀ i, i ∈ s.rangeSearch split q ↔ s.matches i q = true := by
  rw [rangeSearch_eq_filter]
  refine ⟨List.pairwise_lt_range.filter _, fun i => ?_⟩
  rw [List.mem_filter, List.mem_range]
  refine ⟨fun h => h.2, fun h => ⟨?_, h⟩⟩
  by_contra hge
  simp [PartitionStore.matches, Nat.not_lt.mp hge] at h

/-! ### Exact numbers -/

/-- The columns of a store whose doubles are exact numbers. -/
def ofStore (s : Store.PartitionStore) : PartitionStore ℚ where
  vendorId := s.vendorId
  pickupDatetime := s.pickupDatetime
  dropoffDatetime := s.dropoffDatetime
  passengerCount := s.passengerCount
  tripDistance := s.tripDistance
  ratecodeId := s.ratecodeId
  puLocationId := s.puLocationId
  doLocationId := s.doLocationId
  storeAndFwdFlag := s.storeAndFwdFlag.map Bool.toNat
  paymentType := s.paymentType
  fareAmount := s.fareAmount
  extra := s.extra
  mtaTax := s.mtaTax
  tipAmount := s.tipAmount
  tollsAmount := s.tollsAmount
  improvementSurcharge := s.improvementSurcharge
  totalAmount := s.totalAmount
  valid := s.valid.map Bool.toNat

def ofQuery (q : Proto.Query) : Query ℚ :=
  ⟨q.predicates.map fun p => ⟨p.column, p.low, p.high, p.inclusive⟩⟩

lemma resolveCol_unknown (s : Store.PartitionStore) {col : String}
    (h : Store.resolveCol col = none) : resolveCol (ofStore s) col = .i32 [] := by
  have hne : ∀ c ∈ Store.columns, col ≠ c.name := by
    intro c hc heq
    have hnone := List.find?_eq_none.mp h c hc
    simp [heq] at hnone
  simp only [Store.columns, List.forall_mem_cons, Column.name] at hne
  obtain ⟨h1, h2, h3, h4, h5, h6, h7, h8, h9, h10, h11, h12, h13, h14, h15, h16, h17, -⟩ := hne
  rw [resolveCol, if_neg h1, if_neg h2, if_neg h3, if_neg h4, if_neg h5, if_neg h6, if_neg h7,
    if_neg h8, if_neg h9, if_neg h10, if_neg h11, if_neg h12, if_neg h13, if_neg h14, if_neg h15,
    if_neg h16, if_neg h17]

lemma readVal_resolveCol (s : Store.PartitionStore) (i : ℕ) (c : Column) :
    readVal (resolveCol (ofStore s) c.name) i = s.readVal c i := by
  cases c with
  | storeAndFwdFlag =>
    show (((s.storeAndFwdFlag.map Bool.toNat).getD i 0 : ℕ) : ℚ) =
      if s.storeAndFwdFlag.getD i false then 1 else 0
    rw [List.getD_eq_getElem?_getD, List.getElem?_map, List.getD_eq_getElem?_getD]
    cases s.storeAndFwdFlag[i]? with
    | none => rfl
    | some b => cases b <;> rfl
  | _ => rfl

lemma null_resolveCol (s : Store.PartitionStore) (c : Column) :
    (resolveCol (ofStore s) c.name).null = decide (s.columnLength c = 0) := by
  have hempty : ∀ {α : Type} (l : List α), l.isEmpty = decide (l.length = 0) := fun l => by
    cases l <;> rfl
  cases c with
  | storeAndFwdFlag =>
    show (s.storeAndFwdFlag.map Bool.toNat).isEmpty = _
    rw [hempty, List.length_map]
    rfl
  | _ => exact hempty _

lemma ofStore_size (s : Store.PartitionStore) : (ofStore s).size = s.size := List.length_map _

lemma ofStore_isValid (s : Store.PartitionStore) (i : ℕ) : (ofStore s).isValid i = s.isValid i := by
  show ((s.valid.map Bool.toNat).getD i 0 != 0) = s.valid.getD i false
  rw [List.getD_eq_getElem?_getD, List.getElem?_map, List.getD_eq_getElem?_getD]
  cases s.valid[i]? with
  | none => rfl
  | some b => cases b <;> rfl

lemma resolveCol_eq_some {col : String} {c : Column} (h : Store.resolveCol col = some c) :
    col = c.name := by
  have hname : c.name = col := by simpa using List.find?_some h
  exact hname.symm

/-- With exact numbers and one entry a row in every column, the row predicate is that of the
store. -/
lemma ofStore_matches {s : Store.PartitionStore} (haligned : ∀ c, s.columnLength c = s.size)
    (i : ℕ) (q : Proto.Query) : (ofStore s).matches i (ofQuery q) = s.matches i q := by
  by_cases hi : i < s.size
  · have hall : (ofStore s).matchesAll i (ofQuery q).predicates =
        Store.satisfies q (s.fill i) := by
      unfold ofQuery Store.satisfies
      simp only
      induction q.predicates with
      | nil => rfl
      | cons p ps ih =>
        rw [List.map_cons, matchesAll, List.all_cons, ih]
        simp only
        cases hc : Store.resolveCol p.column with
        | none =>
          rw [resolveCol_unknown s hc]
          rfl
        | some c =>
          rw [resolveCol_eq_some hc, null_resolveCol, haligned c, readVal_resolveCol,
            Store.PartitionStore.readVal_eq, if_neg (by simp; omega)]
          have hhit : hit p.low p.high p.inclusive (Store.value (s.fill i) c) =
              p.holds (Store.value (s.fill i) c) := rfl
          rw [hhit]
          dsimp only
          cases p.holds (Store.value (s.fill i) c) <;> rfl
    unfold PartitionStore.matches
    rw [hall, ofStore_size, ofStore_isValid, Store.PartitionStore.matches_eq]
    cases s.isValid i <;> simp [hi]
  · unfold PartitionStore.matches
    rw [ofStore_size, Store.PartitionStore.matches_eq]
    simp [hi, Nat.not_lt.mp hi]

theorem rangeSearch_ofStore {s : Store.PartitionStore} (haligned : ∀ c, s.columnLength c = s.size)
    (split : Split (ofStore s).size) (split' : Split s.size) (q : Proto.Query) :
    (ofStore s).rangeSearch split (ofQuery q) = s.rangeSearch split' q := by
  rw [rangeSearch_eq_filter, Store.PartitionStore.rangeSearch_eq, ofStore_size]
  exact List.filter_congr fun i _ => ofStore_matches haligned i q

end Mini2.Scan
