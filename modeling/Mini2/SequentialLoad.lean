import Mathlib.Data.List.GetD
import Mini2.CsvLoad

/-!
The parallel loader gives the rows of a sequential one. The slices are whole lines, a slice has
room for all its lines, and blank lines leave cells behind that stay invalid.
-/

namespace Mini2.SequentialLoad

open Mini2.Proto Mini2.Store Mini2.Lines Mini2.CsvLoad

variable {data : List UInt8}

/-! ### Slices -/

lemma length_slice {a b : ℕ} (hb : b ≤ data.length) : (slice data a b).length = b - a := by
  rw [slice, List.length_drop, List.length_take, Nat.min_eq_left hb]

lemma slice_append {a m b : ℕ} (ham : a ≤ m) (hmb : m ≤ b) :
    slice data a m ++ slice data m b = slice data a b := by
  unfold slice
  have hcut : data.take b = data.take m ++ (data.take b).drop m := by
    conv_lhs => rw [← List.take_append_drop m (data.take b)]
    rw [List.take_take, Nat.min_eq_left hmb]
  conv_rhs => rw [hcut]
  rcases Nat.le_total m data.length with hm | hm
  · rw [List.drop_append_of_le_length (by rw [List.length_take, Nat.min_eq_left hm]; exact ham)]
  · have hnil : (data.take b).drop m = [] := List.drop_eq_nil_of_le (by
      rw [List.length_take]
      omega)
    rw [hnil, List.append_nil, List.append_nil]

lemma slice_nil {a b : ℕ} (h : b ≤ a) : slice data a b = [] :=
  List.drop_eq_nil_of_le (by rw [List.length_take]; omega)

lemma slice_all : slice data 0 data.length = data := by simp [slice]

lemma memchr_none {b : UInt8} {p stop : ℕ} (h : memchr data b p stop = none) :
    b ∉ slice data p stop := by
  intro hmem
  have hnone := List.findIdx?_eq_none_iff.mp (Option.map_eq_none_iff.mp h) b hmem
  simp at hnone

lemma memchr_some {b : UInt8} {p stop found : ℕ} (h : memchr data b p stop = some found) :
    p ≤ found ∧ found < stop ∧ data[found]? = some b ∧ b ∉ slice data p found ∧
      slice data p stop = slice data p found ++ b :: slice data (found + 1) stop := by
  obtain ⟨i, hi, rfl⟩ := Option.map_eq_some_iff.mp h
  obtain ⟨hlt, hb, hbefore⟩ := List.findIdx?_eq_some_iff_getElem.mp hi
  have hlen : i < min stop data.length - p := by simpa [slice] using hlt
  have hget : data[p + i]? = some b := by
    have hx : (slice data p stop)[i] = b := by simpa using hb
    have hdata : (slice data p stop)[i] = data[p + i] := by simp [slice]
    rw [← hx, hdata, List.getElem?_eq_getElem]
  have hone : slice data (p + i) (p + i + 1) = [b] := by
    obtain ⟨hlt', hx⟩ := List.getElem?_eq_some_iff.mp hget
    rw [slice, List.take_add_one, hget, List.drop_append_of_le_length (by simp; omega)]
    simp
  have hcut : slice data p stop =
      slice data p (p + i) ++ b :: slice data (p + i + 1) stop := by
    rw [← slice_append (Nat.le_add_right p i) (by omega : p + i ≤ stop),
      ← slice_append (by omega : p + i ≤ p + i + 1) (by omega : p + i + 1 ≤ stop), hone]
    rfl
  refine ⟨Nat.le_add_right p i, by omega, hget, fun hmem => ?_, hcut⟩
  obtain ⟨j, hj, hjb⟩ := List.getElem_of_mem hmem
  have hji : j < i := by
    rw [length_slice (by omega)] at hj
    omega
  refine hbefore j hji ?_
  have hj' : j < (slice data p stop).length := hji.trans hlt
  have hsame : (slice data p stop)[j] = b := by
    rw [← hjb]
    simp only [hcut]
    rw [List.getElem_append_left hj]
  simpa using hsame

lemma mem_slice {b : UInt8} {p stop i : ℕ} (hp : p ≤ i) (hi : i < stop)
    (h : data[i]? = some b) : b ∈ slice data p stop := by
  obtain ⟨hlt, hget⟩ := List.getElem?_eq_some_iff.mp h
  refine List.mem_iff_getElem.mpr ⟨i - p, by simp [slice]; omega, ?_⟩
  simp [slice, Nat.add_sub_cancel' hp, hget]

/-! ### The first pass -/

lemma countNewlines_eq (data : List UInt8) (p stop : ℕ) :
    countNewlines data p stop = (slice data p stop).count newline := by
  fun_induction countNewlines data p stop with
  | case1 p hp hnone => exact (List.count_eq_zero.mpr (memchr_none hnone)).symm
  | case2 p hp found hfound ih =>
    obtain ⟨-, -, -, hnot, hcut⟩ := memchr_some hfound
    rw [hcut, List.count_append, List.count_eq_zero.mpr hnot, List.count_cons_self, ih]
    omega
  | case3 p hp => rw [slice_nil (by omega), List.count_nil]

lemma terminated_after {p stop found : ℕ} (h : Terminated newline (slice data p stop))
    (hcut : slice data p stop = slice data p found ++ newline :: slice data (found + 1) stop) :
    Terminated newline (slice data (found + 1) stop) := by
  rw [hcut, ← List.singleton_append, ← List.append_assoc] at h
  exact h.of_append

/-! ### The slices of the threads -/

variable {nt : ℕ}

def lineEnd (data : List UInt8) (raw : ℕ) : ℕ :=
  match memchr data newline raw data.length with
  | some nl => nl + 1
  | none => data.length

lemma chunkStart_eq (i : ℕ) : chunkStart data nt i =
    if i = 0 then 0 else if i < nt then lineEnd data (data.length * i / nt) else data.length := by
  unfold chunkStart lineEnd
  split
  · rfl
  · split
    · simp only
      split
      next hraw =>
        have hnil : memchr data newline (data.length * i / nt) data.length = none := by
          rw [memchr, slice_nil hraw]
          rfl
        rw [hnil]
      next => rfl
    · rfl

lemma lineEnd_le (raw : ℕ) : lineEnd data raw ≤ data.length := by
  unfold lineEnd
  split
  next nl h =>
    obtain ⟨-, hlt, -, -, -⟩ := memchr_some h
    omega
  next => exact Nat.le_refl _

lemma lineEnd_mono {raw raw' : ℕ} (h : raw ≤ raw') : lineEnd data raw ≤ lineEnd data raw' := by
  unfold lineEnd
  split
  next nl hnl =>
    obtain ⟨-, hlt, -, hnot, -⟩ := memchr_some hnl
    split
    next nl' hnl' =>
      obtain ⟨hle', -, hget', -, -⟩ := memchr_some hnl'
      -- no newline comes before the first one from `raw` on
      by_contra hgt
      exact hnot (mem_slice (h.trans hle') (by omega) hget')
    next => omega
  next hnone =>
    split
    next nl' hnl' =>
      obtain ⟨hle', hlt', hget', -, -⟩ := memchr_some hnl'
      exact absurd (mem_slice (h.trans hle') hlt' hget') (memchr_none hnone)
    next => exact Nat.le_refl _

lemma terminated_lineEnd (h : Terminated newline data) (raw : ℕ) :
    Terminated newline (data.take (lineEnd data raw)) := by
  unfold lineEnd
  split
  next nl hnl =>
    obtain ⟨-, -, hget, -, -⟩ := memchr_some hnl
    rw [List.take_add_one, hget]
    exact terminated_iff.mpr (.inr ⟨_, rfl⟩)
  next => rwa [List.take_length]

lemma chunkStart_le (i : ℕ) : chunkStart data nt i ≤ data.length := by
  rw [chunkStart_eq]
  split
  · exact Nat.zero_le _
  · split
    · exact lineEnd_le _
    · exact Nat.le_refl _

lemma chunkStart_mono (i : ℕ) : chunkStart data nt i ≤ chunkStart data nt (i + 1) := by
  rw [chunkStart_eq, chunkStart_eq, if_neg (Nat.succ_ne_zero i)]
  split
  · exact Nat.zero_le _
  · split
    · split
      · exact lineEnd_mono (Nat.div_le_div_right (Nat.mul_le_mul_left _ (Nat.le_succ i)))
      · exact lineEnd_le _
    · rw [if_neg (by omega)]

lemma terminated_chunkStart (h : Terminated newline data) (i : ℕ) :
    Terminated newline (data.take (chunkStart data nt i)) := by
  rw [chunkStart_eq]
  split
  · exact terminated_nil
  · split
    · exact terminated_lineEnd h _
    · rwa [List.take_length]

def chunk (data : List UInt8) (nt tid : ℕ) : List UInt8 :=
  slice data (chunkStart data nt tid) (chunkStart data nt (tid + 1))

lemma take_chunkStart (i : ℕ) : data.take (chunkStart data nt (i + 1)) =
    data.take (chunkStart data nt i) ++ chunk data nt i := by
  have h : slice data 0 (chunkStart data nt i) ++ chunk data nt i =
      slice data 0 (chunkStart data nt (i + 1)) :=
    slice_append (Nat.zero_le _) (chunkStart_mono i)
  simpa [slice] using h.symm

lemma terminated_chunk (h : Terminated newline data) (i : ℕ) :
    Terminated newline (chunk data nt i) := by
  have hterm : Terminated newline (data.take (chunkStart data nt (i + 1))) :=
    terminated_chunkStart h (i + 1)
  rw [take_chunkStart] at hterm
  exact hterm.of_append

lemma flatten_chunks (k : ℕ) :
    ((List.range k).map (chunk data nt)).flatten = data.take (chunkStart data nt k) := by
  induction k with
  | zero => rfl
  | succ k ih =>
    rw [List.range_succ, List.map_append, List.flatten_append, ih, take_chunkStart]
    simp

/-- **The slices are the file**, each of them whole lines. -/
lemma flatten_all_chunks (hnt : 1 ≤ nt) : ((List.range nt).map (chunk data nt)).flatten = data := by
  rw [flatten_chunks, chunkStart_eq, if_neg (by omega), if_neg (Nat.lt_irrefl nt),
    List.take_length]

lemma offset_succ {i : ℕ} (hi : i < nt) :
    offset data nt (i + 1) = offset data nt i + (chunk data nt i).count newline := by
  have hget : (counts data nt)[i]? = some ((chunk data nt i).count newline) := by
    simp [counts, hi, countNewlines_eq, chunk]
  rw [offset, List.take_add_one, hget, offset, List.sum_append]
  simp

lemma offset_eq {i : ℕ} (hi : i ≤ nt) :
    offset data nt i = (data.take (chunkStart data nt i)).count newline := by
  induction i with
  | zero => simp [offset, chunkStart]
  | succ i ih => rw [offset_succ hi, ih (Nat.le_of_succ_le hi), take_chunkStart, List.count_append]

lemma offset_last (hnt : 1 ≤ nt) : offset data nt nt = data.count newline := by
  rw [offset_eq (Nat.le_refl nt), chunkStart_eq, if_neg (by omega), if_neg (Nat.lt_irrefl nt),
    List.take_length]

lemma offset_mono {i j : ℕ} (hij : i ≤ j) (hj : j ≤ nt) :
    offset data nt i ≤ offset data nt j := by
  induction hij with
  | refl => exact Nat.le_refl _
  | step hle ih =>
    have hprev := ih (Nat.le_of_succ_le hj)
    rw [offset_succ (Nat.lt_of_succ_le hj)]
    omega

/-! ### The writes of the threads -/

variable (fromCharsDouble : List UInt8 → Option (ℚ × List UInt8))

/-- What the lines of a slice that are not blank put into their cells. -/
def parsedRows (text : List UInt8) : List (TaxiRow × Bool) :=
  ((lines newline text).filter (· ≠ [])).map (parseRow fromCharsDouble)

lemma length_parsedRows (text : List UInt8) :
    (parsedRows fromCharsDouble text).length ≤ text.count newline := by
  rw [parsedRows, List.length_map, ← length_lines]
  exact List.length_filter_le _ _

/-- A thread with room for its slice writes the rows of its lines, one after the other. -/
lemma parseChunk_eq {cend cap : ℕ} (hend : cend ≤ data.length) (pos idx : ℕ)
    (hterm : Terminated newline (slice data pos cend))
    (hcap : idx + (slice data pos cend).count newline ≤ cap) :
    parseChunk fromCharsDouble data cend cap pos idx =
      ((parsedRows fromCharsDouble (slice data pos cend)).zipIdx idx).map Prod.swap := by
  fun_induction parseChunk fromCharsDouble data cend cap pos idx with
  | case1 idx nl hlt hnl ih =>
    -- a blank line
    obtain ⟨-, -, -, hnot, hcut⟩ := memchr_some hnl
    have hrows : parsedRows fromCharsDouble (slice data nl cend) =
        parsedRows fromCharsDouble (slice data (nl + 1) cend) := by
      rw [parsedRows, hcut, lines_cons hnot, slice_nil (Nat.le_refl nl)]
      rfl
    rw [hrows]
    refine ih (terminated_after hterm hcut) ?_
    rw [hcut, List.count_append, List.count_cons_self] at hcap
    omega
  | case2 pos idx hlt nl hnl hne ih =>
    obtain ⟨hle, hlt', hget, hnot, hcut⟩ := memchr_some hnl
    have hline : slice data pos nl ≠ [] := by
      rw [← List.length_pos_iff, length_slice (by omega)]
      omega
    have hrows : parsedRows fromCharsDouble (slice data pos cend) =
        parseRow fromCharsDouble (slice data pos nl) ::
          parsedRows fromCharsDouble (slice data (nl + 1) cend) := by
      rw [parsedRows, hcut, lines_cons hnot, List.filter_cons_of_pos (by simpa using hline)]
      rfl
    rw [hrows, List.zipIdx_cons, List.map_cons, ih (terminated_after hterm hcut) ?_]
    · rfl
    · rw [hcut, List.count_append, List.count_cons_self] at hcap
      omega
  | case3 pos idx hlt hnone =>
    have hlen := length_slice (a := pos) hend
    have hmem := hterm.mem (List.ne_nil_of_length_pos (by omega))
    exact absurd hmem (memchr_none hnone)
  | case4 pos idx hstop =>
    have hnil : slice data pos cend = [] := by
      by_contra hne
      have hpos := List.count_pos_iff.mpr (hterm.mem hne)
      rcases Nat.lt_or_ge pos cend with hlt | hge
      · omega
      · exact hne (slice_nil hge)
    rw [hnil]
    rfl

lemma threadWrites_eq (h : Terminated newline data) {i : ℕ} (hi : i < nt) :
    threadWrites fromCharsDouble data nt i =
      ((parsedRows fromCharsDouble (chunk data nt i)).zipIdx (offset data nt i)).map Prod.swap :=
  parseChunk_eq fromCharsDouble (chunkStart_le _) _ _ (terminated_chunk h i)
    (offset_succ hi).ge

lemma parsedRows_flatten {texts : List (List UInt8)} (h : ∀ t ∈ texts, Terminated newline t) :
    parsedRows fromCharsDouble texts.flatten =
      (texts.map (parsedRows fromCharsDouble)).flatten := by
  unfold parsedRows
  rw [lines_flatten h, List.filter_flatten, List.map_flatten, List.map_map, List.map_map]
  rfl

/-! ### The cells of the store -/

/-- A row of zeros that is not valid. -/
def blank : TaxiRow × Bool :=
  (⟨0, 0, 0, 0, 0, 0, 0, 0, false, 0, 0, 0, 0, 0, 0, 0, 0⟩, false)

def cells (s : PartitionStore) : List (TaxiRow × Bool) :=
  (List.range s.size).map fun i => (s.fill i, s.isValid i)

def Aligned (s : PartitionStore) : Prop := ∀ c, s.columnLength c = s.size

lemma rows_eq (s : PartitionStore) :
    s.rows = (cells s).filterMap fun c => if c.2 then some c.1 else none := by
  rw [PartitionStore.rows, cells, List.filterMap_map, ← List.filterMap_eq_filter,
    List.map_filterMap]
  refine List.filterMap_congr fun i _ => ?_
  cases hv : s.isValid i <;> simp [Option.guard, hv]

lemma aligned_resize (n : ℕ) : Aligned (.resize n) := fun c => by
  cases c <;> simp [PartitionStore.columnLength, PartitionStore.resize, PartitionStore.size]

lemma cells_resize (n : ℕ) : cells (.resize n) = List.replicate n blank := by
  refine List.eq_replicate_iff.mpr ⟨by simp [cells, PartitionStore.size, PartitionStore.resize], ?_⟩
  intro cell hcell
  obtain ⟨i, -, rfl⟩ := List.mem_map.mp hcell
  simp [PartitionStore.fill, PartitionStore.isValid, PartitionStore.resize, blank]

lemma aligned_write {s : PartitionStore} (h : Aligned s) (i : ℕ) (r : TaxiRow) (ok : Bool) :
    Aligned (s.write i r ok) := fun c => by
  have hc := h c
  cases c <;> simpa [PartitionStore.columnLength, PartitionStore.write, PartitionStore.size]
    using hc

lemma getD_set {A : Type} (l : List A) (i j : ℕ) (v d : A) (hj : j < l.length) :
    (l.set i v).getD j d = if i = j then v else l.getD j d := by
  rw [List.getD_eq_getElem?_getD, List.getElem?_set, List.getD_eq_getElem?_getD]
  split
  · next h =>
    subst h
    simp [hj]
  · rfl

lemma cells_write {s : PartitionStore} (h : Aligned s) (i : ℕ) (c : TaxiRow × Bool) :
    cells (s.write i c.1 c.2) = (cells s).set i c := by
  have hsize : (s.write i c.1 c.2).size = s.size := by
    simp [PartitionStore.write, PartitionStore.size]
  refine List.ext_getElem (by simp [cells, hsize]) fun j hj hj' => ?_
  have hlt : j < s.size := by simpa [cells, hsize] using hj
  have hcol : ∀ col, j < s.columnLength col := fun col => (h col).symm ▸ hlt
  have hfill : (s.write i c.1 c.2).fill j = if i = j then c.1 else s.fill j := by
    unfold PartitionStore.fill PartitionStore.write
    rw [getD_set _ _ _ _ _ (hcol .vendorId), getD_set _ _ _ _ _ (hcol .pickupDatetime),
      getD_set _ _ _ _ _ (hcol .dropoffDatetime), getD_set _ _ _ _ _ (hcol .passengerCount),
      getD_set _ _ _ _ _ (hcol .tripDistance), getD_set _ _ _ _ _ (hcol .ratecodeId),
      getD_set _ _ _ _ _ (hcol .puLocationId), getD_set _ _ _ _ _ (hcol .doLocationId),
      getD_set _ _ _ _ _ (hcol .storeAndFwdFlag), getD_set _ _ _ _ _ (hcol .paymentType),
      getD_set _ _ _ _ _ (hcol .fareAmount), getD_set _ _ _ _ _ (hcol .extra),
      getD_set _ _ _ _ _ (hcol .mtaTax), getD_set _ _ _ _ _ (hcol .tipAmount),
      getD_set _ _ _ _ _ (hcol .tollsAmount), getD_set _ _ _ _ _ (hcol .improvementSurcharge),
      getD_set _ _ _ _ _ (hcol .totalAmount)]
    split <;> rfl
  have hvalid : (s.write i c.1 c.2).isValid j = if i = j then c.2 else s.isValid j :=
    getD_set _ _ _ _ _ hlt
  rw [List.getElem_set]
  simp only [cells, List.getElem_map, List.getElem_range, hfill, hvalid]
  split <;> rfl

lemma store_spec (n : ℕ) (ws : List Write) :
    Aligned (store n ws) ∧ cells (store n ws) = writeAll (List.replicate n blank) ws := by
  suffices h : ∀ s : PartitionStore, Aligned s →
      Aligned (ws.foldl (fun s w => s.write w.1 w.2.1 w.2.2) s) ∧
        cells (ws.foldl (fun s w => s.write w.1 w.2.1 w.2.2) s) = writeAll (cells s) ws by
    have := h (.resize n) (aligned_resize n)
    rwa [cells_resize] at this
  induction ws with
  | nil => exact fun s hs => ⟨hs, rfl⟩
  | cons w ws ih =>
    intro s hs
    have hstep := ih (s.write w.1 w.2.1 w.2.2) (aligned_write hs _ _ _)
    rwa [cells_write hs] at hstep

/-! ### All threads -/

/-- The cells of a slice: its rows, and what its blank lines leave over. -/
def chunkCells (data : List UInt8) (nt i : ℕ) : List (TaxiRow × Bool) :=
  let rows := parsedRows fromCharsDouble (chunk data nt i)
  rows ++ List.replicate ((chunk data nt i).count newline - rows.length) blank

lemma length_chunkCells (i : ℕ) :
    (chunkCells fromCharsDouble data nt i).length = (chunk data nt i).count newline := by
  have := length_parsedRows fromCharsDouble (chunk data nt i)
  simp only [chunkCells, List.length_append, List.length_replicate]
  omega

lemma writeAll_threads (h : Terminated newline data) {k : ℕ} (hk : k ≤ nt) (m : ℕ) :
    writeAll (List.replicate (offset data nt k + m) blank)
        ((List.range k).flatMap (threadWrites fromCharsDouble data nt)) =
      ((List.range k).map (chunkCells fromCharsDouble data nt)).flatten ++
        List.replicate m blank ∧
    ((List.range k).map (chunkCells fromCharsDouble data nt)).flatten.length =
      offset data nt k := by
  induction k generalizing m with
  | zero => simp [writeAll, offset]
  | succ k ih =>
    have hlt : k < nt := hk
    have hroom := length_parsedRows fromCharsDouble (chunk data nt k)
    set rows := parsedRows fromCharsDouble (chunk data nt k) with hrows
    set count := (chunk data nt k).count newline with hcount
    obtain ⟨hcells, hlen⟩ := ih hlt.le (count + m)
    have hsplit : List.replicate (count + m) blank =
        List.replicate (rows.length + (count - rows.length)) blank ++ List.replicate m blank := by
      rw [Nat.add_sub_cancel' hroom, List.replicate_append_replicate]
    rw [offset_succ hlt, Nat.add_assoc, List.range_succ, List.flatMap_append, writeAll_append,
      hcells, List.map_append, List.flatten_append, List.flatMap_singleton,
      threadWrites_eq fromCharsDouble h hlt, ← hlen, hsplit, ← hrows, writeAll_zipIdx]
    refine ⟨by simp [chunkCells, ← hrows, ← hcount], ?_⟩
    rw [List.length_append, List.map_singleton, List.flatten_singleton, length_chunkCells]

lemma index_lt (h : Terminated newline data) {i : ℕ} (hi : i < nt) {w : Write}
    (hw : w ∈ threadWrites fromCharsDouble data nt i) :
    offset data nt i ≤ w.1 ∧ w.1 < offset data nt (i + 1) := by
  rw [threadWrites_eq fromCharsDouble h hi] at hw
  obtain ⟨x, hx, rfl⟩ := List.mem_map.mp hw
  have hroom := length_parsedRows fromCharsDouble (chunk data nt i)
  have hmem := List.mem_zipIdx hx
  rw [offset_succ hi]
  exact ⟨hmem.1, by have := hmem.2.1; simp only [Prod.fst_swap]; omega⟩

lemma index_lt_size (h : Terminated newline data) {w : Write}
    (hw : w ∈ writes fromCharsDouble data nt) : w.1 < offset data nt nt := by
  obtain ⟨i, hi, hw⟩ := List.mem_flatMap.mp hw
  have hi := List.mem_range.mp hi
  exact (index_lt fromCharsDouble h hi hw).2.trans_le (offset_mono hi (Nat.le_refl nt))

lemma nodup_writes (h : Terminated newline data) :
    ((writes fromCharsDouble data nt).map Prod.fst).Nodup := by
  rw [writes, List.map_flatMap, List.nodup_flatMap]
  refine ⟨fun i hi => ?_, ?_⟩
  · rw [threadWrites_eq fromCharsDouble h (List.mem_range.mp hi), List.map_map]
    have hsnd : (Prod.fst ∘ Prod.swap : (TaxiRow × Bool) × ℕ → ℕ) = Prod.snd := rfl
    rw [hsnd, List.zipIdx_map_snd]
    exact List.nodup_range'
  · -- a thread writes in front of where the next one begins
    have hsorted : (List.range nt).Pairwise fun i j => i < nt ∧ j < nt ∧ i < j :=
      List.pairwise_lt_range.imp_of_mem fun hi hj hlt =>
        ⟨List.mem_range.mp hi, List.mem_range.mp hj, hlt⟩
    refine hsorted.imp fun {i j} hij x hxi hxj => ?_
    obtain ⟨w, hw, rfl⟩ := List.mem_map.mp hxi
    obtain ⟨w', hw', heq⟩ := List.mem_map.mp hxj
    have hbelow := (index_lt fromCharsDouble h hij.1 hw).2
    have habove := (index_lt fromCharsDouble h hij.2.1 hw').1
    have hle : offset data nt (i + 1) ≤ offset data nt j := offset_mono hij.2.2 hij.2.1.le
    omega

lemma cells_store (h : Terminated newline data) (sched : Schedule) :
    cells (store (offset data nt nt) (sched.order (writes fromCharsDouble data nt))) =
      ((List.range nt).map (chunkCells fromCharsDouble data nt)).flatten := by
  have hperm := sched.perm (writes fromCharsDouble data nt)
  have hnodup := (hperm.map Prod.fst).nodup_iff.mpr (nodup_writes fromCharsDouble h)
  rw [(store_spec _ _).2, writeAll_perm hperm hnodup]
  have hall := (writeAll_threads fromCharsDouble h (Nat.le_refl nt) 0).1
  rwa [Nat.add_zero, List.replicate_zero, List.append_nil] at hall

def validRows (cs : List (TaxiRow × Bool)) : List TaxiRow :=
  cs.filterMap fun c => if c.2 then some c.1 else none

lemma validRows_chunkCells (i : ℕ) : validRows (chunkCells fromCharsDouble data nt i) =
    validRows (parsedRows fromCharsDouble (chunk data nt i)) := by
  have hblank : ∀ n, validRows (List.replicate n blank) = [] := fun n => by
    rw [validRows, List.filterMap_replicate_of_none rfl]
  rw [chunkCells, validRows, List.filterMap_append]
  exact (congrArg _ (hblank _)).trans (List.append_nil _)

lemma validRows_flatten (css : List (List (TaxiRow × Bool))) :
    validRows css.flatten = (css.map validRows).flatten := List.filterMap_flatten

lemma isValid_eq (s : PartitionStore) (i : ℕ) :
    s.isValid i = (((cells s)[i]?).map Prod.snd).getD false := by
  rw [cells, List.getElem?_map]
  rcases Nat.lt_or_ge i s.size with hi | hi
  · rw [List.getElem?_eq_getElem (by simpa using hi)]
    simp
  · rw [List.getElem?_eq_none (by simpa using hi)]
    rw [PartitionStore.isValid, List.getD_eq_getElem?_getD, List.getElem?_eq_none hi]
    rfl

lemma size_store (n : ℕ) (ws : List Write) : (store n ws).size = n := by
  have hlen := congrArg List.length (store_spec n ws).2
  rwa [length_writeAll, List.length_replicate, cells, List.length_map, List.length_range] at hlen

lemma memchr_header {header : List UInt8} (hheader : newline ∉ header) :
    memchr (header ++ newline :: data) newline 0 (header ++ newline :: data).length =
      some header.length := by
  have hnone : header.findIdx? (· == newline) = none :=
    List.findIdx?_eq_none_iff.mpr fun b hb => by
      simpa using fun heq : b = newline => hheader (heq ▸ hb)
  rw [memchr, slice_all, List.findIdx?_append, hnone, List.findIdx?_cons]
  simp

lemma loadPartitionCsv_eq (path : String) {header : List UInt8} (hheader : newline ∉ header)
    (nt : ℕ) (sched : Schedule) :
    loadPartitionCsv fromCharsDouble path (some (header ++ newline :: data)) nt sched =
      .ok (store (offset data nt nt) (sched.order (writes fromCharsDouble data nt))) := by
  rw [loadPartitionCsv, memchr_header hheader]
  · simp
  · simp

lemma loadPartitionCsv_noNewline (path : String) {file : List UInt8} (hne : file ≠ [])
    (h : newline ∉ file) (nt : ℕ) (sched : Schedule) :
    loadPartitionCsv fromCharsDouble path (some file) nt sched =
      .error ("CSV has no header newline: " ++ path) := by
  have hnone : memchr file newline 0 file.length = none := by
    rw [memchr, slice_all, List.findIdx?_eq_none_iff.mpr fun b hb => ?_]
    · rfl
    · simpa using fun heq : b = newline => h (heq ▸ hb)
  rw [loadPartitionCsv, hnone]
  exact hne

/-- The valid rows of the store are those of the lines, one after the other. -/
lemma rows_store (h : Terminated newline data) (hnt : 1 ≤ nt) (sched : Schedule) :
    (store (offset data nt nt) (sched.order (writes fromCharsDouble data nt))).rows =
      sequentialRows fromCharsDouble data := by
  have hchunks : ∀ t ∈ (List.range nt).map (chunk data nt), Terminated newline t := by
    intro t ht
    obtain ⟨i, -, rfl⟩ := List.mem_map.mp ht
    exact terminated_chunk h i
  have hseq := parsedRows_flatten fromCharsDouble hchunks
  rw [flatten_all_chunks hnt] at hseq
  calc _ = validRows (cells _) := rows_eq _
    _ = validRows (parsedRows fromCharsDouble data) := by
        rw [cells_store fromCharsDouble h, hseq, validRows_flatten, validRows_flatten,
          List.map_map, List.map_map, List.map_map]
        exact congrArg List.flatten
          (List.map_congr_left fun i _ => validRows_chunkCells fromCharsDouble i)
    _ = sequentialRows fromCharsDouble data := rfl

/-- **The parallel loader is a sequential one**: whatever the number of threads and the order of
their writes, the valid rows of the store are those of the lines, one after the other. No write
is outside of the store or on a cell that another one has, and a row without a write is not
valid. -/
theorem parallel_load (path : String) (header : List UInt8) (hheader : newline ∉ header)
    (h : Terminated newline data) (hnt : 1 ≤ nt) (sched : Schedule) :
    ∃ s, loadPartitionCsv fromCharsDouble path (some (header ++ newline :: data)) nt sched =
        .ok s ∧
      s.rows = sequentialRows fromCharsDouble data ∧
      (∀ w ∈ sched.order (writes fromCharsDouble data nt), w.1 < s.size) ∧
      ((sched.order (writes fromCharsDouble data nt)).map Prod.fst).Nodup ∧
      ∀ i, i ∉ (sched.order (writes fromCharsDouble data nt)).map Prod.fst →
        s.isValid i = false := by
  have hperm := sched.perm (writes fromCharsDouble data nt)
  obtain ⟨haligned, hcells⟩ :=
    store_spec (offset data nt nt) (sched.order (writes fromCharsDouble data nt))
  have hsize : (store (offset data nt nt) (sched.order (writes fromCharsDouble data nt))).size =
      offset data nt nt := size_store _ _
  refine ⟨store (offset data nt nt) (sched.order (writes fromCharsDouble data nt)),
    loadPartitionCsv_eq fromCharsDouble path hheader nt sched,
    rows_store fromCharsDouble h hnt sched, fun w hw => ?_, ?_, fun i hi => ?_⟩
  · rw [hsize]
    exact index_lt_size fromCharsDouble h (hperm.mem_iff.mp hw)
  · exact (hperm.map Prod.fst).nodup_iff.mpr (nodup_writes fromCharsDouble h)
  · rw [isValid_eq, hcells, getElem?_writeAll hi, List.getElem?_replicate]
    split <;> rfl

/-- Two threads, a line between blank ones and a line that is no row, the writes backwards. -/
theorem parallel_load_two : ∃ s,
    loadPartitionCsv (fun _ => none) "d.csv" (some ([104] ++ newline :: [10, 49, 10, 10, 120, 10]))
      2 ⟨List.reverse, List.reverse_perm⟩ = .ok s ∧
    s.rows.map TaxiRow.vendorId = [1] := by
  obtain ⟨s, hload, hrows, -, -, -⟩ := parallel_load (fun _ => none) "d.csv" [104] (by decide)
    (.inr (by decide) : Terminated newline [10, 49, 10, 10, 120, 10]) (by decide : 1 ≤ 2)
    ⟨List.reverse, List.reverse_perm⟩
  refine ⟨s, hload, ?_⟩
  rw [hrows]
  decide

end Mini2.SequentialLoad
