import Mini2.PyPartition

/-!
The table of column ranges both nodes put in front of a scan. A C++ node builds it before it
serves, by a parallel reduction; a Python node builds it in the background, column by column,
while queries look into it.
-/

namespace Mini2.RangeTable

open Mini2.Proto Mini2.Store

/-! ### The reduction -/

section Reduction

open Store.PartitionStore

lemma joinRange_none (a : Option (ℚ × ℚ)) : joinRange a none = a := by cases a <;> rfl

lemma joinRange_comm (a b : Option (ℚ × ℚ)) : joinRange a b = joinRange b a := by
  cases a <;> cases b <;> simp [joinRange, min_comm, max_comm]

lemma joinRange_assoc (a b c : Option (ℚ × ℚ)) :
    joinRange (joinRange a b) c = joinRange a (joinRange b c) := by
  cases a <;> cases b <;> cases c <;> simp [joinRange, min_assoc, max_assoc]

lemma foldl_joinRange (l : List (Option (ℚ × ℚ))) (a : Option (ℚ × ℚ)) :
    l.foldl joinRange a = joinRange a (l.foldl joinRange none) := by
  induction l generalizing a with
  | nil => exact (joinRange_none a).symm
  | cons b l ih =>
    rw [List.foldl_cons, List.foldl_cons, ih (joinRange a b), ih (joinRange none b)]
    exact joinRange_assoc a b _

variable (s : PartitionStore) (c : Column)

/-- What the loop makes of one row: nothing, if the row is not valid. -/
def cellRange (i : ℕ) : Option (ℚ × ℚ) :=
  if s.isValid i then some (s.readVal c i, s.readVal c i) else none

/-- Summaries a reduction can come to over some rows, whatever parts it cuts them into and in
whatever order it joins the parts. -/
inductive Reduces : List ℕ → Option (ℚ × ℚ) → Prop
  | start : Reduces [] none
  | cell (i : ℕ) : Reduces [i] (cellRange s c i)
  | join {is js : List ℕ} {a b : Option (ℚ × ℚ)} (ha : Reduces is a) (hb : Reduces js b) :
      Reduces (is ++ js) (joinRange a b)
  | reorder {is js : List ℕ} {a : Option (ℚ × ℚ)} (ha : Reduces is a) (h : is.Perm js) :
      Reduces js a

/-- A range table of the store: a column with no valid row has no entry. -/
def IsTable (table : List (String × ℚ × ℚ)) : Prop :=
  ∃ summary : Column → Option (ℚ × ℚ),
    (∀ c, Reduces s c (List.range s.size) (summary c)) ∧
      table = if s.empty then []
        else columns.filterMap fun c => (summary c).map fun r => (c.name, r)

variable {s c}

lemma minmaxBlock_eq (is : List ℕ) :
    s.minmaxBlock c is = (is.map (cellRange s c)).foldl joinRange none := by
  have key : ∀ (a : Option (ℚ × ℚ)), ((is.filter s.isValid).map fun i =>
      some (s.readVal c i, s.readVal c i)).foldl joinRange a =
        (is.map (cellRange s c)).foldl joinRange a := by
    induction is with
    | nil => exact fun _ => rfl
    | cons i is ih =>
      intro a
      cases hv : s.isValid i with
      | true => simp [hv, cellRange, ih]
      | false => simp [hv, cellRange, ih, joinRange_none]
  exact key none

lemma minmaxBlock_append (is js : List ℕ) :
    s.minmaxBlock c (is ++ js) = joinRange (s.minmaxBlock c is) (s.minmaxBlock c js) := by
  rw [minmaxBlock_eq, minmaxBlock_eq, minmaxBlock_eq, List.map_append, List.foldl_append,
    foldl_joinRange]

lemma minmaxBlock_perm {is js : List ℕ} (h : is.Perm js) :
    s.minmaxBlock c is = s.minmaxBlock c js := by
  induction h with
  | nil => rfl
  | cons i _ ih =>
    rw [← List.singleton_append, minmaxBlock_append, ih, ← minmaxBlock_append]
    rfl
  | swap i j is =>
    have hsplit : ∀ i j : ℕ, s.minmaxBlock c (i :: j :: is) =
        joinRange (s.minmaxBlock c [i]) (joinRange (s.minmaxBlock c [j]) (s.minmaxBlock c is)) := by
      intro i j
      rw [← minmaxBlock_append, ← minmaxBlock_append]
      rfl
    rw [hsplit, hsplit, ← joinRange_assoc, joinRange_comm (s.minmaxBlock c [j]), joinRange_assoc]
  | trans _ _ ih ih' => exact ih.trans ih'

/-- The order of a reduction leaves no trace. -/
theorem Reduces.eq {is : List ℕ} {a : Option (ℚ × ℚ)} (h : Reduces s c is a) :
    a = s.minmaxBlock c is := by
  induction h with
  | start => rfl
  | cell i => exact (minmaxBlock_eq [i]).symm
  | join _ _ iha ihb => rw [iha, ihb, ← minmaxBlock_append]
  | reorder _ hperm ih => rw [ih, minmaxBlock_perm hperm]

lemma reduces_block (is : List ℕ) : Reduces s c is (s.minmaxBlock c is) := by
  induction is with
  | nil => exact .start
  | cons i is ih =>
    have hcell := (Reduces.cell (s := s) (c := c) i).join ih
    rw [(Reduces.cell i).eq, ← minmaxBlock_append] at hcell
    exact hcell

lemma minmaxCol_eq (split : Split s.size) (c : Column) :
    s.minmaxCol split c = s.minmaxBlock c (List.range s.size) := by
  have key : ∀ blocks : List (List ℕ),
      (blocks.map (s.minmaxBlock c)).foldl joinRange none = s.minmaxBlock c blocks.flatten := by
    intro blocks
    induction blocks with
    | nil => rfl
    | cons block blocks ih =>
      rw [List.map_cons, List.foldl_cons, foldl_joinRange, ih, List.flatten_cons,
        minmaxBlock_append]
      rfl
  rw [minmaxCol, key, split.flatten]

theorem IsTable.eq {table : List (String × ℚ × ℚ)} (h : IsTable s table) (split : Split s.size) :
    table = s.computeColumnRanges split := by
  obtain ⟨summary, hred, rfl⟩ := h
  unfold computeColumnRanges
  simp only [minmaxCol_eq, (hred _).eq]

theorem isTable_computeColumnRanges (split : Split s.size) :
    IsTable s (s.computeColumnRanges split) :=
  ⟨s.minmaxCol split, fun c => minmaxCol_eq split c ▸ reduces_block _, rfl⟩

end Reduction

/-! ### The table of a Python node -/

open PyPartition PyPartition.Partition

/-- `(min(col), max(col))`; of no cell, nothing. -/
def minMax : List ℚ → Option (ℚ × ℚ)
  | [] => none
  | v :: vs => some (vs.foldl min v, vs.foldl max v)

/-- The table at a moment of its construction: the columns in `done` have been summarised. -/
def computeColumnRanges (p : Partition) (done : List Column) : List (String × ℚ × ℚ) :=
  if p.n = 0 then []
  else done.filterMap fun c => (minMax (p.col c)).map fun r => (c.name, r)

/-- One predicate against the table as its look-up finds it. -/
def inRange (table : List (String × ℚ × ℚ)) (p : RangePredicate) : Bool :=
  match table.lookup p.column with
  | none => true
  | some (lo, hi) => !(p.high < lo || hi < p.low)

/-- The loop over the predicates; `table k` is what the `k`-th access finds. -/
def canMatchFrom (table : ℕ → List (String × ℚ × ℚ)) (k : ℕ) : List RangePredicate → Bool
  | [] => true
  | p :: ps => if !inRange (table k) p then false else canMatchFrom table (k + 1) ps

def predicateCanMatch (table : ℕ → List (String × ℚ × ℚ)) (predicates : List RangePredicate) :
    Bool :=
  if (table 0).isEmpty then true else canMatchFrom table 1 predicates

lemma minMax_bounds {col : List ℚ} {lo hi : ℚ} (h : minMax col = some (lo, hi)) :
    ∀ x ∈ col, lo ≤ x ∧ x ≤ hi := by
  cases col with
  | nil => cases h
  | cons v vs =>
    obtain ⟨rfl, rfl⟩ := Prod.mk.inj (Option.some.inj h)
    have hmin : ∀ x ∈ v :: vs, vs.foldl min v ≤ x := (List.min?_eq_some_iff.mp List.min?_cons').2
    have hmax : ∀ x ∈ v :: vs, x ≤ vs.foldl max v := (List.max?_eq_some_iff.mp List.max?_cons').2
    exact fun x hx => ⟨hmin x hx, hmax x hx⟩

lemma lookup_computeColumnRanges {p : Partition} {done : List Column} {col : String} {r : ℚ × ℚ}
    (h : (computeColumnRanges p done).lookup col = some r) :
    ∃ c, resolveCol col = some c ∧ minMax (p.col c) = some r := by
  unfold computeColumnRanges at h
  split at h
  · cases h
  · obtain ⟨l₁, l₂, hl, -⟩ := List.lookup_eq_some_iff.mp h
    have hmem : (col, r) ∈ l₁ ++ (col, r) :: l₂ := by simp
    obtain ⟨c, -, hc⟩ := List.mem_filterMap.mp (hl ▸ hmem)
    obtain ⟨r', hr', he⟩ := Option.map_eq_some_iff.mp hc
    obtain ⟨rfl, rfl⟩ := Prod.mk.inj he
    exact ⟨c, resolveCol_name c, hr'⟩

lemma canMatchFrom_eq_false {table : ℕ → List (String × ℚ × ℚ)} {k : ℕ}
    {ps : List RangePredicate} (h : canMatchFrom table k ps = false) :
    ∃ p ∈ ps, ∃ j, inRange (table j) p = false := by
  induction ps generalizing k with
  | nil => cases h
  | cons p ps ih =>
    unfold canMatchFrom at h
    cases hp : inRange (table k) p with
    | false => exact ⟨p, List.mem_cons_self, k, hp⟩
    | true =>
      obtain ⟨p', hp', hj⟩ := ih (by simpa [hp] using h)
      exact ⟨p', List.mem_cons_of_mem _ hp', hj⟩

lemma not_satisfies {p : Partition} {rs : List CsvRow} (h : p.Holds rs) {done : List Column}
    {q : RangePredicate} (hq : inRange (computeColumnRanges p done) q = false)
    {preds : List RangePredicate} (hmem : q ∈ preds) {i : ℕ} (hi : i < p.n) :
    satisfies ⟨preds⟩ (p.rowToProto i) = false := by
  have hr := List.getElem?_eq_getElem (h.n ▸ hi : i < rs.length)
  unfold inRange at hq
  cases hl : (computeColumnRanges p done).lookup q.column with
  | none => simp [hl] at hq
  | some r =>
    obtain ⟨c, hc, hmm⟩ := lookup_computeColumnRanges hl
    have hin : value (p.rowToProto i) c ∈ p.col c := by
      rw [h.col, h.rowToProto hr]
      exact List.mem_map.mpr ⟨_, List.getElem_mem _, rfl⟩
    obtain ⟨hlo, hhi⟩ := minMax_bounds hmm _ hin
    by_contra hsat
    have hold := List.all_eq_true.mp (Bool.eq_true_of_not_eq_false hsat) q hmem
    simp only [hc] at hold
    have hlow := RangePredicate.low_le hold
    have hhigh := RangePredicate.le_high hold
    simp only [hl, Bool.not_eq_false', Bool.or_eq_true, decide_eq_true_eq] at hq
    rcases hq with hq | hq
    · exact absurd (hlo.trans hhigh) (not_le.mpr hq)
    · exact absurd (hlow.trans hhi) (not_le.mpr hq)

lemma predicateCanMatch_rows {p : Partition} {rs : List CsvRow} (h : p.Holds rs)
    {done : ℕ → List Column} {preds : List RangePredicate}
    (hf : predicateCanMatch (fun k => computeColumnRanges p (done k)) preds = false) :
    p.rangeSearch preds = [] := by
  unfold predicateCanMatch at hf
  split at hf
  · cases hf
  · obtain ⟨q, hq, j, hj⟩ := canMatchFrom_eq_false hf
    rw [h.rangeSearch_eq, List.filter_eq_nil_iff]
    intro i hi
    rw [not_satisfies h hj hq (List.mem_range.mp hi)]
    exact Bool.false_ne_true

/-- **The filter never hides a match.** A query it turns away has an empty scan: with the table
of a C++ node, in whatever order it was reduced, and with that of a Python node, whatever
columns each access finds summarised. -/
theorem filter_hides_nothing :
    (∀ (s : Store.PartitionStore) (split : Split s.size) (q : Query),
      IsTable s s.columnRanges → s.predicateCanMatch q = false → s.rangeSearch split q = []) ∧
    ∀ (rows : List CsvRow) (sortColumn : Option String) (done : ℕ → List Column)
      (preds : List RangePredicate),
      predicateCanMatch (fun k => computeColumnRanges (load rows sortColumn) (done k)) preds =
        false → (load rows sortColumn).rangeSearch preds = [] := by
  constructor
  · intro s split q htable hf
    rw [s.rangeSearch_eq, List.filter_eq_nil_iff]
    intro i _
    rw [s.predicateCanMatch_sound (htable.eq split) hf i]
    exact Bool.false_ne_true
  · intro rows sortColumn done preds hf
    obtain ⟨rs, -, h⟩ := load_spec rows sortColumn
    exact predicateCanMatch_rows h hf

def shortTrip : CsvRow where
  vendorId := 1
  pickupDatetime := 0
  dropoffDatetime := 600
  passengerCount := 1
  tripDistance := 2
  ratecodeId := 1
  f6 := "N"
  puLocationId := 100
  doLocationId := 200
  paymentType := 1
  fareAmount := 9
  extra := 0
  mtaTax := 0
  tipAmount := 0
  tollsAmount := 0
  improvementSurcharge := 0
  totalAmount := 9

/-- Trips of more than fifty miles. -/
def longTrips : RangePredicate := ⟨"trip_distance", 50, 100, true⟩

/-- The C++ store has the trip; the Python table has one column of seventeen. -/
theorem filter_hides_nothing_long :
    (Loaded.ofRows [shortTrip.typed]).store.rangeSearch (.single _) ⟨[longTrips]⟩ = [] ∧
      (load [shortTrip] none).rangeSearch [longTrips] = [] :=
  ⟨filter_hides_nothing.1 _ (.single _) ⟨[longTrips]⟩
      (by
        rw [(Loaded.ofRows [shortTrip.typed]).ranges]
        exact isTable_computeColumnRanges _)
      (by decide +kernel),
    filter_hides_nothing.2 [shortTrip] none (fun _ => [.tripDistance]) [longTrips]
      (by decide +kernel)⟩

end Mini2.RangeTable
