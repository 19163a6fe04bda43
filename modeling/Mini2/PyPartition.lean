import Mathlib.Data.List.Perm.Basic
import Mathlib.Data.List.Sort
import Mini2.Lib.Bisect
import Mini2.Store

/-!
The partition of a Python node: typed columns that are sorted by one of them when they are
loaded, and the search that bisects that column. Values are exact numbers.
-/

namespace Mini2.PyPartition

open Mini2.Proto Mini2.Store Mini2.Bisect

inductive Typecode
  | i | q | d | B
  deriving DecidableEq

def Typecode.Value : Typecode → Type
  | .i => ℤ
  | .q => ℤ
  | .d => ℚ
  | .B => ℕ

def Typecode.zero : (t : Typecode) → t.Value
  | .i => (0 : ℤ)
  | .q => (0 : ℤ)
  | .d => (0 : ℚ)
  | .B => (0 : ℕ)

def Typecode.num : (t : Typecode) → t.Value → ℚ
  | .i, (v : ℤ) => v
  | .q, (v : ℤ) => v
  | .d, (v : ℚ) => v
  | .B, (v : ℕ) => v

/-- The typecode of each column. -/
def colSpec : Column → Typecode
  | .vendorId => .i
  | .pickupDatetime => .q
  | .dropoffDatetime => .q
  | .passengerCount => .i
  | .tripDistance => .d
  | .ratecodeId => .i
  | .storeAndFwdFlag => .B
  | .puLocationId => .i
  | .doLocationId => .i
  | .paymentType => .i
  | .fareAmount => .d
  | .extra => .d
  | .mtaTax => .d
  | .tipAmount => .d
  | .tollsAmount => .d
  | .improvementSurcharge => .d
  | .totalAmount => .d

/-- A line of the file, its fields read as numbers but for the text of the flag. -/
structure CsvRow where
  vendorId : ℤ
  pickupDatetime : ℤ
  dropoffDatetime : ℤ
  passengerCount : ℤ
  tripDistance : ℚ
  ratecodeId : ℤ
  f6 : String
  puLocationId : ℤ
  doLocationId : ℤ
  paymentType : ℤ
  fareAmount : ℚ
  extra : ℚ
  mtaTax : ℚ
  tipAmount : ℚ
  tollsAmount : ℚ
  improvementSurcharge : ℚ
  totalAmount : ℚ

def flag (f6 : String) : Bool :=
  match f6.toList with
  | [] => false
  | c :: _ => c == 'Y' || c == 'y' || c == '1'

def CsvRow.cell (r : CsvRow) : (c : Column) → (colSpec c).Value
  | .vendorId => r.vendorId
  | .pickupDatetime => r.pickupDatetime
  | .dropoffDatetime => r.dropoffDatetime
  | .passengerCount => r.passengerCount
  | .tripDistance => r.tripDistance
  | .ratecodeId => r.ratecodeId
  | .storeAndFwdFlag => if flag r.f6 then (1 : ℕ) else (0 : ℕ)
  | .puLocationId => r.puLocationId
  | .doLocationId => r.doLocationId
  | .paymentType => r.paymentType
  | .fareAmount => r.fareAmount
  | .extra => r.extra
  | .mtaTax => r.mtaTax
  | .tipAmount => r.tipAmount
  | .tollsAmount => r.tollsAmount
  | .improvementSurcharge => r.improvementSurcharge
  | .totalAmount => r.totalAmount

def CsvRow.typed (r : CsvRow) : TaxiRow where
  vendorId := r.vendorId
  pickupDatetime := r.pickupDatetime
  dropoffDatetime := r.dropoffDatetime
  passengerCount := r.passengerCount
  tripDistance := r.tripDistance
  ratecodeId := r.ratecodeId
  puLocationId := r.puLocationId
  doLocationId := r.doLocationId
  storeAndFwdFlag := flag r.f6
  paymentType := r.paymentType
  fareAmount := r.fareAmount
  extra := r.extra
  mtaTax := r.mtaTax
  tipAmount := r.tipAmount
  tollsAmount := r.tollsAmount
  improvementSurcharge := r.improvementSurcharge
  totalAmount := r.totalAmount

lemma num_cell (r : CsvRow) (c : Column) : (colSpec c).num (r.cell c) = value r.typed c := by
  cases c with
  | storeAndFwdFlag =>
    show ((if flag r.f6 then (1 : ℕ) else (0 : ℕ) : ℕ) : ℚ) = if flag r.f6 then 1 else 0
    push_cast
    rfl
  | _ => rfl

/-- The columns, their length, and the column they are sorted by. -/
structure Partition where
  cols : (c : Column) → List (colSpec c).Value
  n : ℕ
  sortColumn : Option String

namespace Partition

/-- What a comparison sees of a column. -/
def col (p : Partition) (c : Column) : List ℚ := (p.cols c).map (colSpec c).num

/-- The column a sort column names; a name that is no column, or empty, sorts nothing. -/
def sortCol (sortColumn : Option String) : Option Column :=
  match sortColumn with
  | some s => if s = "" then none else resolveCol s
  | none => none

/-- `sorted(range(n), key=key_col.__getitem__)`. -/
def sorted (n : ℕ) (keyCol : List ℚ) : List ℕ :=
  (List.range n).mergeSort fun i j => keyCol.getD i 0 ≤ keyCol.getD j 0

/-- A new array of length `n`, filled from `src` in the given order. -/
def permute {t : Typecode} (n : ℕ) (order : List ℕ) (src : List t.Value) : List t.Value :=
  (List.range n).map fun i => src.getD (order.getD i 0) t.zero

def load (rows : List CsvRow) (sortColumn : Option String) : Partition :=
  let cols := fun c => rows.map (·.cell c)
  let n := rows.length
  match sortCol sortColumn with
  | some c =>
    if 1 < n then
      let order := sorted n ((cols c).map (colSpec c).num)
      ⟨fun c => permute n order (cols c), n, sortColumn⟩
    else ⟨cols, n, sortColumn⟩
  | none => ⟨cols, n, sortColumn⟩

def bisectWindow (col : List ℚ) (low high : ℚ) (inclusive : Bool) : ℕ × ℕ :=
  if inclusive then (bisectLeft col low, bisectRight col high)
  else (bisectRight col low, bisectLeft col high)

/-- `range(lo, hi)`. -/
def range (w : ℕ × ℕ) : List ℕ := List.range' w.1 (w.2 - w.1)

/-- A predicate with its column. -/
abbrev Bound := List ℚ × RangePredicate

def Bound.window (b : Bound) : List ℕ := range (bisectWindow b.1 b.2.low b.2.high b.2.inclusive)

/-- The value at `i` passes the predicate. -/
def Bound.ok (i : ℕ) (b : Bound) : Bool := b.2.holds (b.1.getD i 0)

/-- The predicates with their columns, unless a column is unknown. -/
def bind (p : Partition) (predicates : List RangePredicate) : Option (List Bound) :=
  predicates.mapM fun q => (resolveCol q.column).map fun c => (p.col c, q)

def sortPredIdx (p : Partition) (predicates : List RangePredicate) : Option ℕ :=
  match p.sortColumn with
  | some s => if s = "" then none else predicates.findIdx? fun q => q.column == s
  | none => none

def rangeSearch (p : Partition) (predicates : List RangePredicate) : List ℕ :=
  if p.n = 0 then []
  else
    match p.bind predicates with
    | none => []
    | some [] => List.range p.n
    | some (b :: bs) =>
      match p.sortPredIdx predicates with
      | some k =>
        if bs = [] ∧ k = 0 then b.window
        else
          let others := (b :: bs).eraseIdx k
          (((b :: bs).getD k b).window).filter fun i => others.all (Bound.ok i)
      | none =>
        if bs = [] then
          (b.1.zipIdx.filter fun vi => b.2.holds vi.1).map Prod.snd
        else (List.range p.n).filter fun i => (b :: bs).all (Bound.ok i)

/-- `cols[c][idx]`. -/
def item (p : Partition) (c : Column) (idx : ℕ) : (colSpec c).Value :=
  (p.cols c).getD idx (colSpec c).zero

/-- `bool(v)`. -/
def bool (v : ℕ) : Bool := v != 0

def rowToProto (p : Partition) (idx : ℕ) : TaxiRow where
  vendorId := p.item .vendorId idx
  pickupDatetime := p.item .pickupDatetime idx
  dropoffDatetime := p.item .dropoffDatetime idx
  passengerCount := p.item .passengerCount idx
  tripDistance := p.item .tripDistance idx
  ratecodeId := p.item .ratecodeId idx
  puLocationId := p.item .puLocationId idx
  doLocationId := p.item .doLocationId idx
  storeAndFwdFlag := bool (p.item .storeAndFwdFlag idx)
  paymentType := p.item .paymentType idx
  fareAmount := p.item .fareAmount idx
  extra := p.item .extra idx
  mtaTax := p.item .mtaTax idx
  tipAmount := p.item .tipAmount idx
  tollsAmount := p.item .tollsAmount idx
  improvementSurcharge := p.item .improvementSurcharge idx
  totalAmount := p.item .totalAmount idx

structure Holds (p : Partition) (rs : List CsvRow) : Prop where
  cols : ∀ c, p.cols c = rs.map (·.cell c)
  n : p.n = rs.length
  sorted : ∀ c, sortCol p.sortColumn = some c →
    rs.Pairwise fun r r' => value r.typed c ≤ value r'.typed c

variable {p : Partition} {rs rows : List CsvRow}

lemma Holds.col (h : p.Holds rs) (c : Column) : p.col c = rs.map fun r => value r.typed c := by
  rw [Partition.col, h.cols, List.map_map]
  exact List.map_congr_left fun r _ => num_cell r c

lemma Holds.rowToProto (h : p.Holds rs) {i : ℕ} {r : CsvRow} (hr : rs[i]? = some r) :
    p.rowToProto i = r.typed := by
  have hitem : ∀ c, p.item c i = r.cell c := fun c => by
    rw [item, h.cols, List.getD_eq_getElem?_getD, List.getElem?_map, hr]
    rfl
  have hflag : bool (if flag r.f6 then (1 : ℕ) else (0 : ℕ)) = flag r.f6 := by
    cases flag r.f6 <;> rfl
  unfold Partition.rowToProto
  simp only [hitem]
  exact congrArg (fun b => { r.typed with storeAndFwdFlag := b }) hflag

/-! ### Loading -/

lemma sorted_perm (n : ℕ) (keyCol : List ℚ) : (sorted n keyCol).Perm (List.range n) :=
  List.mergeSort_perm _ _

lemma pairwise_sorted (n : ℕ) (keyCol : List ℚ) :
    (sorted n keyCol).Pairwise fun i j => keyCol.getD i 0 ≤ keyCol.getD j 0 := by
  let le : ℕ → ℕ → Bool := fun i j => decide (keyCol.getD i 0 ≤ keyCol.getD j 0)
  have htrans : ∀ a b c : ℕ, le a b = true → le b c = true → le a c = true := by
    intro a b c hab hbc
    simp only [le, decide_eq_true_eq] at hab hbc ⊢
    exact hab.trans hbc
  have htotal : ∀ a b : ℕ, (le a b || le b a) = true := fun a b => by
    simpa [le] using le_total _ _
  have h := List.pairwise_mergeSort htrans htotal (List.range n)
  simpa [sorted, le] using h

lemma permute_map {t : Typecode} {order : List ℕ} (horder : order.Perm (List.range rows.length))
    (f : CsvRow → t.Value) (d : CsvRow) :
    permute rows.length order (rows.map f) = (order.map (rows.getD · d)).map f := by
  have hlen : order.length = rows.length := by rw [horder.length_eq, List.length_range]
  refine List.ext_getElem (by simp [permute, hlen]) fun i hi hi' => ?_
  simp only [List.length_map] at hi'
  have hmem : order[i] < rows.length :=
    List.mem_range.mp (horder.mem_iff.mp (List.getElem_mem hi'))
  simp [permute, List.getD_eq_getElem?_getD, hi', hmem]

lemma map_getD_range (d : CsvRow) : (List.range rows.length).map (rows.getD · d) = rows :=
  List.ext_getElem (by simp) fun i hi hi' => by simp [List.getD_eq_getElem?_getD, hi']

lemma load_spec (rows : List CsvRow) (sortColumn : Option String) :
    ∃ rs, rs.Perm rows ∧ (load rows sortColumn).Holds rs := by
  unfold load
  split
  next c hc =>
    dsimp only
    split
    next hn =>
      set key := (rows.map (·.cell c)).map (colSpec c).num with hkey
      have hperm := sorted_perm rows.length key
      obtain ⟨d, -⟩ := List.exists_mem_of_length_pos (by omega : 0 < rows.length)
      refine ⟨(sorted rows.length key).map (rows.getD · d), ?_, fun c' => ?_, ?_,
        fun c' hc' => ?_⟩
      · exact (hperm.map _).trans (by rw [map_getD_range])
      · exact permute_map hperm _ d
      · simp [hperm.length_eq]
      · obtain rfl : c = c' := Option.some.inj (hc.symm.trans hc')
        rw [List.pairwise_map]
        refine (pairwise_sorted rows.length key).imp_of_mem fun {i j} hi hj hle => ?_
        have hi := List.mem_range.mp (hperm.mem_iff.mp hi)
        have hj := List.mem_range.mp (hperm.mem_iff.mp hj)
        simpa [hkey, List.getD_eq_getElem?_getD, hi, hj, num_cell] using hle
    next hn =>
      refine ⟨rows, .refl _, fun _ => rfl, rfl, fun c' _ => ?_⟩
      match rows, hn with
      | [], _ => exact .nil
      | [r], _ => exact List.pairwise_singleton _ _
      | _ :: _ :: _, hn => simp at hn
  next hc => exact ⟨rows, .refl _, fun _ => rfl, rfl, fun c' hc' => by simp [hc] at hc'⟩

/-! ### The search -/

variable {preds : List RangePredicate} {bs : List Bound}

lemma filter_range (lo hi n : ℕ) :
    ((List.range n).filter fun i => decide (lo ≤ i) && decide (i < hi)) =
      List.range' lo (min hi n - lo) := by
  induction n with
  | zero => simp
  | succ n ih =>
    rw [List.range_succ, List.filter_append, ih]
    by_cases hin : lo ≤ n ∧ n < hi
    · have hlen : min hi (n + 1) - lo = (min hi n - lo) + 1 := by omega
      have hlast : lo + (min hi n - lo) = n := by omega
      rw [hlen, List.range'_concat]
      simp [hin, hlast]
    · have hlen : min hi (n + 1) - lo = min hi n - lo := by omega
      rw [hlen]
      have hout : (decide (lo ≤ n) && decide (n < hi)) = false := by
        simpa using hin
      simp [hout]

lemma Holds.getD_col (h : p.Holds rs) {i : ℕ} {r : CsvRow} (hr : rs[i]? = some r) (c : Column) :
    (p.col c).getD i 0 = value r.typed c := by
  rw [h.col, List.getD_eq_getElem?_getD, List.getElem?_map, hr]
  rfl

lemma bind_eq (p : Partition) (preds : List RangePredicate) :
    p.bind preds = (resolvePreds ⟨preds⟩).map (List.map fun cq => (p.col cq.1, cq.2)) := by
  unfold bind resolvePreds
  induction preds with
  | nil => rfl
  | cons q preds ih =>
    rw [List.mapM_cons, ih, List.mapM_cons]
    cases resolveCol q.column with
    | none => rfl
    | some c =>
      cases List.mapM (fun q => (resolveCol q.column).map fun c => (c, q)) preds <;> rfl

lemma Holds.bind_all (h : p.Holds rs) (hb : p.bind preds = some bs) {i : ℕ} {r : CsvRow}
    (hr : rs[i]? = some r) : bs.all (Bound.ok i) = satisfies ⟨preds⟩ r.typed := by
  rw [bind_eq] at hb
  obtain ⟨l, hl, rfl⟩ := Option.map_eq_some_iff.mp hb
  rw [resolvePreds_some hl, List.all_map]
  refine congrArg (List.all l) (funext fun cq => ?_)
  show cq.2.holds ((p.col cq.1).getD i 0) = _
  rw [h.getD_col hr]

lemma bind_getElem (hb : p.bind preds = some bs) {k : ℕ} {q : RangePredicate}
    (hq : preds[k]? = some q) :
    ∃ c, resolveCol q.column = some c ∧ bs[k]? = some (p.col c, q) := by
  unfold bind at hb
  induction preds generalizing bs k with
  | nil => simp at hq
  | cons q' preds ih =>
    rw [List.mapM_cons] at hb
    obtain ⟨b, hb', hrest⟩ := Option.bind_eq_some_iff.mp hb
    obtain ⟨bs', hbs', hcons⟩ := Option.bind_eq_some_iff.mp hrest
    obtain rfl : b :: bs' = bs := by simpa using hcons
    cases k with
    | zero =>
      obtain rfl : q' = q := by simpa using hq
      obtain ⟨c, hc, rfl⟩ := Option.map_eq_some_iff.mp hb'
      exact ⟨c, hc, rfl⟩
    | succ k => exact ih hbs' hq

/-- The bisected window of the sort column is a scan with its predicate. -/
lemma Holds.window_eq (h : p.Holds rs) {c : Column} (hc : sortCol p.sortColumn = some c)
    (q : RangePredicate) :
    Bound.window (p.col c, q) = (List.range p.n).filter fun i => Bound.ok i (p.col c, q) := by
  have hlen : (p.col c).length = p.n := by rw [h.col, List.length_map, h.n]
  have hsorted : (p.col c).Pairwise (· ≤ ·) := by
    rw [h.col, List.pairwise_map]
    exact h.sorted c hc
  have hrange : ∀ lo hi, hi ≤ p.n → range (lo, hi) =
      (List.range p.n).filter fun i => decide (lo ≤ i) && decide (i < hi) := by
    intro lo hi hle
    rw [filter_range, Nat.min_eq_left hle]
    rfl
  have hcell : ∀ i ∈ List.range p.n, (p.col c)[i]? = some ((p.col c).getD i 0) := by
    intro i hi
    have hlt : i < (p.col c).length := hlen ▸ List.mem_range.mp hi
    rw [List.getD_eq_getElem?_getD, List.getElem?_eq_getElem hlt]
    rfl
  show range (bisectWindow (p.col c) q.low q.high q.inclusive) = _
  unfold bisectWindow
  cases hinc : q.inclusive with
  | true =>
    rw [if_pos rfl, hrange _ _ (hlen ▸ bisectRight_le_length _ _)]
    refine List.filter_congr fun i hi => ?_
    have hleft := lt_bisectLeft_iff hsorted (hcell i hi) (x := q.low)
    have hright := lt_bisectRight_iff hsorted (hcell i hi) (x := q.high)
    have hok : Bound.ok i (p.col c, q) = (decide (q.low ≤ (p.col c).getD i 0) &&
        decide ((p.col c).getD i 0 ≤ q.high)) := if_pos hinc
    have hlow : bisectLeft (p.col c) q.low ≤ i ↔ q.low ≤ (p.col c).getD i 0 := by
      rw [← not_lt, hleft, not_lt]
    rw [hok, decide_eq_decide.mpr hright, decide_eq_decide.mpr hlow]
  | false =>
    rw [if_neg (by simp), hrange _ _ (hlen ▸ bisectLeft_le_length _ _)]
    refine List.filter_congr fun i hi => ?_
    have hleft := lt_bisectRight_iff hsorted (hcell i hi) (x := q.low)
    have hright := lt_bisectLeft_iff hsorted (hcell i hi) (x := q.high)
    have hok : Bound.ok i (p.col c, q) = (decide (q.low < (p.col c).getD i 0) &&
        decide ((p.col c).getD i 0 < q.high)) := if_neg (by simp [hinc])
    have hlow : bisectRight (p.col c) q.low ≤ i ↔ q.low < (p.col c).getD i 0 := by
      rw [← not_lt, hleft, not_le]
    rw [hok, decide_eq_decide.mpr hright, decide_eq_decide.mpr hlow]

/-- The predicate the search bisects is on the column the rows are sorted by. -/
lemma Holds.sortPredIdx_spec (hb : p.bind preds = some bs) {k : ℕ}
    (hk : p.sortPredIdx preds = some k) :
    ∃ c q, sortCol p.sortColumn = some c ∧ bs[k]? = some (p.col c, q) := by
  unfold sortPredIdx at hk
  split at hk
  next s hs =>
    split at hk
    · cases hk
    next hne =>
      obtain ⟨hlt, hq, -⟩ := List.findIdx?_eq_some_iff_getElem.mp hk
      have hcol : preds[k].column = s := by simpa using hq
      obtain ⟨c, hc, hbs⟩ := bind_getElem hb (List.getElem?_eq_getElem hlt)
      refine ⟨c, preds[k], ?_, hbs⟩
      rw [hs, ← hc, hcol]
      exact if_neg hne
  next => cases hk

lemma all_eraseIdx {k i : ℕ} {b : Bound} (hb : bs[k]? = some b) :
    (Bound.ok i b && (bs.eraseIdx k).all (Bound.ok i)) = bs.all (Bound.ok i) := by
  obtain ⟨hlt, rfl⟩ := List.getElem?_eq_some_iff.mp hb
  have hperm := List.getElem_cons_eraseIdx_perm hlt
  have hall := hperm.all_eq (f := Bound.ok i)
  rwa [List.all_cons] at hall

lemma zipIdx_filter (b : Bound) :
    (b.1.zipIdx.filter fun vi => b.2.holds vi.1).map Prod.snd =
      (List.range b.1.length).filter fun i => Bound.ok i b := by
  have hzip : b.1.zipIdx = (List.range b.1.length).map fun i => (b.1.getD i 0, i) :=
    List.ext_getElem (by simp) fun i hi hi' => by
      simp only [List.length_zipIdx] at hi
      simp [List.getD_eq_getElem?_getD, hi]
  rw [hzip, List.filter_map, List.map_map]
  exact List.map_id' _

/-- **The four ways of the search are one scan.** -/
lemma Holds.rangeSearch_eq (h : p.Holds rs) (preds : List RangePredicate) :
    p.rangeSearch preds =
      (List.range p.n).filter fun i => satisfies ⟨preds⟩ (p.rowToProto i) := by
  have hrow : ∀ {bs}, p.bind preds = some bs → ∀ i ∈ List.range p.n,
      bs.all (Bound.ok i) = satisfies ⟨preds⟩ (p.rowToProto i) := by
    intro bs hb i hi
    have hlt : i < rs.length := h.n ▸ List.mem_range.mp hi
    have hr := List.getElem?_eq_getElem hlt
    rw [h.bind_all hb hr, h.rowToProto hr]
  have hscan : ∀ {bs}, p.bind preds = some bs →
      ((List.range p.n).filter fun i => bs.all (Bound.ok i)) =
        (List.range p.n).filter fun i => satisfies ⟨preds⟩ (p.rowToProto i) :=
    fun hb => List.filter_congr (hrow hb)
  unfold rangeSearch
  split
  next hn => simp [hn]
  next hn =>
    split
    next hb =>
      rw [bind_eq, Option.map_eq_none_iff] at hb
      exact (List.filter_eq_nil_iff.mpr fun i _ => by simp [resolvePreds_none hb]).symm
    next hb =>
      rw [← hscan hb]
      simp
    next b bs hb =>
      rw [← hscan hb]
      split
      next k hk =>
        obtain ⟨c, q, hc, hbk⟩ := Holds.sortPredIdx_spec hb hk
        split
        next hone =>
          obtain ⟨rfl, rfl⟩ := hone
          obtain rfl : b = (p.col c, q) := by simpa using hbk
          rw [h.window_eq hc]
          simp
        next =>
          have hget : (b :: bs).getD k b = (p.col c, q) := by
            rw [List.getD_eq_getElem?_getD, hbk]
            rfl
          dsimp only
          rw [hget, h.window_eq hc, List.filter_filter]
          refine List.filter_congr fun i _ => ?_
          rw [← all_eraseIdx hbk, Bool.and_comm]
      next hk =>
        split
        next hone =>
          subst hone
          have hlen : b.1.length = p.n := by
            rw [bind_eq] at hb
            obtain ⟨l, -, hl⟩ := Option.map_eq_some_iff.mp hb
            obtain ⟨cq, -, rfl⟩ := List.map_eq_singleton_iff.mp hl
            rw [h.col, List.length_map, h.n]
          rw [zipIdx_filter, hlen]
          simp
        next => rfl

lemma Holds.map_rowToProto (h : p.Holds rs) :
    (List.range p.n).map p.rowToProto = rs.map CsvRow.typed :=
  List.ext_getElem (by simp [h.n]) fun i hi hi' => by
    simp only [List.length_map] at hi'
    simp [h.rowToProto (List.getElem?_eq_getElem hi')]

/-- **Sorting and bisecting are invisible**: whatever column the rows have been sorted by, a
search finds ascending indices, and the rows at them are those of the file that satisfy the
predicates, in some order; none, if a column is unknown. -/
theorem rangeSearch_load (rows : List CsvRow) (sortColumn : Option String)
    (preds : List RangePredicate) :
    ((load rows sortColumn).rangeSearch preds).Pairwise (· < ·) ∧
      (((load rows sortColumn).rangeSearch preds).map (load rows sortColumn).rowToProto).Perm
        ((rows.map CsvRow.typed).filter (satisfies ⟨preds⟩)) ∧
      ((∃ q ∈ preds, resolveCol q.column = none) →
        (load rows sortColumn).rangeSearch preds = []) := by
  obtain ⟨rs, hperm, h⟩ := load_spec rows sortColumn
  rw [h.rangeSearch_eq]
  refine ⟨List.pairwise_lt_range.filter _, ?_, ?_⟩
  · have hfilter := List.filter_map (f := (load rows sortColumn).rowToProto)
      (p := satisfies ⟨preds⟩) (l := List.range (load rows sortColumn).n)
    rw [h.map_rowToProto] at hfilter
    exact hfilter ▸ (hperm.map CsvRow.typed).filter _
  · rintro ⟨q, hq, hnone⟩
    refine List.filter_eq_nil_iff.mpr fun i _ hsat => ?_
    have hall := List.all_eq_true.mp hsat q hq
    simp [hnone] at hall

end Partition

end Mini2.PyPartition
