import Mini2.Lib.Calendar
import Mini2.Loaders
import Mini2.ValidRows

/-!
The generator of a synthetic dataset, and what the loader makes of the files it writes. The
writer has a column in front that the loader knows nothing of, and writes dates where the loader
expects seconds, so that no row it writes is valid.

What the random numbers of `synth_row` come to are the fields of a row. The amounts it rounds to
two digits are given in hundredths.
-/

namespace Mini2.GenDataset

open Mini2.Proto Mini2.Store Mini2.CsvLoad Mini2.PyCsv Mini2.Utf8 Mini2.Loaders
open Mini2.SequentialLoad

/-! ### Rows -/

/-- An amount in hundredths, few enough digits for `repr` to give it back as it is. -/
structure Amount where
  hundredths : ℕ
  lt : hundredths < 10 ^ 15

structure SynthRow where
  rowId : ℕ
  vendor : ℕ
  passengers : ℕ
  dist : Amount
  rate : ℕ
  pu : ℕ
  dropoff : ℕ
  fwd : Bool
  ptype : ℕ
  fare : Amount
  extra : Amount
  tolls : Amount
  tip : Amount
  total : Amount
  month : ℕ
  day : ℕ
  hour : ℕ
  minute : ℕ
  tripMinutes : ℕ
  vendor_mem : vendor ∈ [1, 2]
  passengers_mem : passengers ∈ [1, 2, 3, 4, 5, 6]
  dist_ge : 10 ≤ dist.hundredths
  rate_mem : rate ∈ [1, 2, 3, 4, 5, 6]
  pu_range : 1 ≤ pu ∧ pu ≤ 265
  dropoff_range : 1 ≤ dropoff ∧ dropoff ≤ 265
  ptype_mem : ptype ∈ [1, 2, 3, 4]
  extra_mem : extra.hundredths ∈ [0, 50, 100]
  tolls_mem : tolls.hundredths ∈ [0, 576, 612, 1152]
  tip_eq : ptype ≠ 1 → tip.hundredths = 0
  month_range : 1 ≤ month ∧ month ≤ 12
  day_range : 1 ≤ day ∧ day ≤ 28
  hour_le : hour ≤ 23
  minute_le : minute ≤ 59
  tripMinutes_ge : 1 ≤ tripMinutes

namespace SynthRow

def mta : Amount := ⟨50, by decide⟩

def improv : Amount := ⟨30, by decide⟩

def doMinute (r : SynthRow) : ℕ := (r.minute + r.tripMinutes) % 60

def doHour (r : SynthRow) : ℕ := (r.hour + (r.minute + r.tripMinutes) / 60) % 24

end SynthRow

/-! ### Texts -/

/-- `f"{n:02d}"` -/
def pad2 (n : ℕ) : List Char :=
  let digits := Nat.toDigits 10 n
  if digits.length < 2 then '0' :: digits else digits

/-- `repr` of an amount, which leaves out a last zero. -/
def Amount.repr (a : Amount) : List Char :=
  Nat.toDigits 10 (a.hundredths / 100) ++ '.' ::
    if a.hundredths % 10 = 0 then Nat.toDigits 10 (a.hundredths % 100 / 10)
    else pad2 (a.hundredths % 100)

/-- A minute of the year 2017. -/
def time (month day hour minute : ℕ) : List Char :=
  ['2', '0', '1', '7', '-'] ++ (pad2 month ++ '-' :: (pad2 day ++ ' ' :: (pad2 hour ++ ':' ::
    (pad2 minute ++ [':', '0', '0']))))

inductive Cell
  | int (n : ℕ)
  | float (a : Amount)
  | str (s : List Char)

/-- The row in the order in which `synth_row` returns it. -/
def SynthRow.cells (r : SynthRow) : List Cell :=
  [.int r.rowId,
    .int r.vendor,
    .str (time r.month r.day r.hour r.minute),
    .str (time r.month r.day r.doHour r.doMinute),
    .int r.passengers,
    .float r.dist,
    .int r.rate,
    .int r.pu,
    .int r.dropoff,
    .str (if r.fwd then ['Y'] else ['N']),
    .int r.ptype,
    .float r.fare,
    .float r.extra,
    .float SynthRow.mta,
    .float r.tip,
    .float r.tolls,
    .float SynthRow.improv,
    .float r.total]

def quote (s : List Char) : List Char :=
  if s.any fun c => c == ',' || c == '"' || isNewline c then
    '"' :: (s.flatMap (fun c => if c = '"' then ['"', '"'] else [c]) ++ ['"'])
  else s

def Cell.text : Cell → List Char
  | .int n => Nat.toDigits 10 n
  | .float a => a.repr
  | .str s => quote s

/-- `csv.writer`, in its default dialect. -/
def writerow (cells : List Cell) : List Char := record (cells.map Cell.text) ++ ['\r', '\n']

def header : List String :=
  ["row_id", "vendor_id", "pickup_datetime", "dropoff_datetime", "passenger_count",
    "trip_distance", "ratecode_id", "pu_location_id", "do_location_id", "store_and_fwd_flag",
    "payment_type", "fare_amount", "extra", "mta_tax", "tip_amount", "tolls_amount",
    "improvement_surcharge", "total_amount"]

def headerCells : List Cell := header.map fun name => .str name.toList

/-- The files `main` writes, by their owners: row `i` goes to the owner whose turn it is. -/
def main (owners : List String) (rows : List SynthRow) : String → List Char :=
  rows.zipIdx.foldl (fun files x =>
    match owners[x.2 % owners.length]? with
    | some owner => Function.update files owner (files owner ++ writerow x.1.cells)
    | none => files) fun _ => writerow headerCells

/-! ### What a file should load as -/

def assigned (owners : List String) (rows : List SynthRow) (owner : String) :
    List (SynthRow × ℕ) :=
  rows.zipIdx.filter fun x => owners[x.2 % owners.length]? = some owner

def epochSeconds (month day hour minute : ℕ) : ℤ :=
  let days := Calendar.yearStart 2017 + (Calendar.monthStarts false).getD (month - 1) 0 + (day - 1)
  86400 * days + 3600 * hour + 60 * minute

variable (R : Readers)

/-- Each value of a row in the column whose name the header gives it. -/
def SynthRow.taxiRow (r : SynthRow) : TaxiRow where
  vendorId := r.vendor
  pickupDatetime := epochSeconds r.month r.day r.hour r.minute
  dropoffDatetime := epochSeconds r.month r.day r.doHour r.doMinute
  passengerCount := r.passengers
  tripDistance := R.double r.dist.repr
  ratecodeId := r.rate
  puLocationId := r.pu
  doLocationId := r.dropoff
  storeAndFwdFlag := r.fwd
  paymentType := r.ptype
  fareAmount := R.double r.fare.repr
  extra := R.double r.extra.repr
  mtaTax := R.double SynthRow.mta.repr
  tipAmount := R.double r.tip.repr
  tollsAmount := R.double r.tolls.repr
  improvementSurcharge := R.double SynthRow.improv.repr
  totalAmount := R.double r.total.repr

/-- The file of an owner loads as the rows that are assigned to it, all of them valid. -/
def Loadable (owners : List String) (rows : List SynthRow) (owner : String) : Prop :=
  ∀ (path : String) (nt : ℕ) (sched : Schedule), 1 ≤ nt →
    ∃ s, loadPartitionCsv R.fromChars path (some (encode (main owners rows owner))) nt sched =
        .ok s ∧
      SequentialLoad.cells s = (assigned owners rows owner).map fun x => (x.1.taxiRow R, true)

/-- Every row is in the file of exactly one owner. -/
def InOneFile (owners : List String) (rows : List SynthRow) : Prop :=
  ∀ x ∈ rows.zipIdx, ∃! owner, owner ∈ owners ∧ x ∈ assigned owners rows owner

/-! ### The characters of the cells -/

variable {R} {owners : List String} {rows : List SynthRow} {owner : String} {r : SynthRow}
  {s : List Char} {n : ℕ} {c : Char}

/-- A text that the writer need not quote. -/
structure Plain (s : List Char) : Prop where
  ne_nil : s ≠ []
  chars : ∀ c ∈ s, c ≠ ',' ∧ c ≠ '"' ∧ isNewline c = false

lemma Plain.unquoted (h : Plain s) : Unquoted s where
  noNewline c hc := (h.chars c hc).2.2
  noComma hc := (h.chars _ hc).1 rfl
  noQuote hq := (h.chars _ (List.mem_of_mem_head? hq)).2.1 rfl
  ne_nil := h.ne_nil

lemma Plain.quote_eq (h : Plain s) : quote s = s := by
  refine if_neg fun hany => ?_
  obtain ⟨c, hc, hspecial⟩ := List.any_eq_true.mp hany
  obtain ⟨hcomma, hq, hn⟩ := h.chars c hc
  simp [hcomma, hq, hn] at hspecial

lemma plain_of_chars (hne : s ≠ []) (h : ∀ c ∈ s, NumChar c ∨ c = ' ' ∨ c = ':') : Plain s := by
  refine ⟨hne, fun c hc => ?_⟩
  rcases h c hc with hnum | rfl | rfl
  · exact ⟨hnum.ne (by decide), hnum.ne (by decide), hnum.isNewline⟩
  · decide
  · decide

lemma numChar_toDigits (h : c ∈ Nat.toDigits 10 n) : NumChar c :=
  .inl (Nat.isDigit_of_mem_toDigits (by decide) (by decide) h)

lemma numChar_pad2 (h : c ∈ pad2 n) : NumChar c := by
  unfold pad2 at h
  simp only at h
  split at h
  · rcases List.mem_cons.mp h with rfl | h
    · exact .inl rfl
    · exact numChar_toDigits h
  · exact numChar_toDigits h

lemma numChar_repr {a : Amount} (h : c ∈ a.repr) : NumChar c := by
  unfold Amount.repr at h
  rcases List.mem_append.mp h with h | h
  · exact numChar_toDigits h
  · rcases List.mem_cons.mp h with rfl | h
    · exact .inr (.inr rfl)
    · split at h
      · exact numChar_toDigits h
      · exact numChar_pad2 h

lemma plain_time (month day hour minute : ℕ) : Plain (time month day hour minute) := by
  refine plain_of_chars (by simp [time]) fun c hc => ?_
  simp only [time, List.mem_append, List.mem_cons, List.not_mem_nil, or_false] at hc
  rcases hc with (rfl | rfl | rfl | rfl | rfl) | hc | rfl | hc | rfl | hc | rfl | hc | rfl | rfl |
    rfl
  all_goals first
    | exact .inl (numChar_pad2 hc)
    | exact .inl (.inl rfl)
    | exact .inl (.inr (.inl rfl))
    | exact .inr (.inl rfl)
    | exact .inr (.inr rfl)

lemma plain_flag (b : Bool) : Plain (if b then ['Y'] else ['N']) := by
  cases b <;> exact ⟨by simp, by simp [isNewline]⟩

/-- A cell that is written as it is. -/
def Cell.Clean : Cell → Prop
  | .str s => Plain s
  | _ => True

lemma Cell.Clean.unquoted {cell : Cell} (h : cell.Clean) : Unquoted cell.text := by
  cases cell with
  | int n =>
    have hne : Nat.toDigits 10 n ≠ [] := Nat.toDigits_ne_nil
    exact (plain_of_chars hne fun c hc => .inl (numChar_toDigits hc)).unquoted
  | float a =>
    have hne : a.repr ≠ [] := by simp [Amount.repr]
    exact (plain_of_chars hne fun c hc => .inl (numChar_repr hc)).unquoted
  | str s =>
    have hplain : Plain s := h
    show Unquoted (quote s)
    rw [hplain.quote_eq]
    exact hplain.unquoted

lemma clean_cells (r : SynthRow) : ∀ cell ∈ r.cells, cell.Clean := by
  simp [SynthRow.cells, Cell.Clean, plain_time, plain_flag]

lemma clean_headerCells : ∀ cell ∈ headerCells, cell.Clean := by
  have hall : (header.all fun name => name.toList != [] &&
      name.toList.all fun c => c != ',' && c != '"' && !isNewline c) = true := by decide
  intro cell hcell
  obtain ⟨name, hname, rfl⟩ := List.mem_map.mp hcell
  have hplain := List.all_eq_true.mp hall name hname
  simp only [Bool.and_eq_true, List.all_eq_true, bne_iff_ne, Bool.not_eq_true', and_assoc] at hplain
  exact ⟨hplain.1, hplain.2⟩

/-! ### The lines of a file -/

def lineBytes (cells : List Cell) : List UInt8 := encode (record (cells.map Cell.text) ++ ['\r'])

lemma unquoted_texts {cells : List Cell} (h : ∀ cell ∈ cells, cell.Clean) :
    ∀ f ∈ cells.map Cell.text, Unquoted f := by
  intro f hf
  obtain ⟨cell, hcell, rfl⟩ := List.mem_map.mp hf
  exact (h cell hcell).unquoted

lemma encode_writerow (cells : List Cell) (text : List Char) :
    encode (writerow cells ++ text) = lineBytes cells ++ newline :: encode text := by
  have hline := encode_lineEnd .crlf (record (cells.map Cell.text)) text
  rw [← List.append_assoc] at hline
  exact hline

lemma newline_not_mem_lineBytes {cells : List Cell} (h : ∀ cell ∈ cells, cell.Clean) :
    newline ∉ lineBytes cells :=
  newline_not_mem (noNewline_record (unquoted_texts h)) .crlf

def body (xs : List (SynthRow × ℕ)) : List Char := xs.flatMap fun x => writerow x.1.cells

lemma main_eq (owners : List String) (rows : List SynthRow) (owner : String) :
    main owners rows owner = writerow headerCells ++ body (assigned owners rows owner) := by
  unfold main assigned body
  suffices h : ∀ (xs : List (SynthRow × ℕ)) (files : String → List Char),
      xs.foldl (fun files x =>
        match owners[x.2 % owners.length]? with
        | some owner => Function.update files owner (files owner ++ writerow x.1.cells)
        | none => files) files owner =
      files owner ++ (xs.filter fun x => owners[x.2 % owners.length]? = some owner).flatMap
        fun x => writerow x.1.cells from h _ _
  intro xs
  induction xs with
  | nil => exact fun files => (List.append_nil _).symm
  | cons x xs ih =>
    intro files
    rw [List.foldl_cons, ih, List.filter_cons]
    cases hturn : owners[x.2 % owners.length]? with
    | none => simp
    | some owner' =>
      by_cases howner : owner' = owner
      · subst howner
        simp
      · simp [howner, Function.update_of_ne (Ne.symm howner)]

lemma encode_body_cons (x : SynthRow × ℕ) (xs : List (SynthRow × ℕ)) :
    encode (body (x :: xs)) = lineBytes x.1.cells ++ newline :: encode (body xs) :=
  encode_writerow x.1.cells (body xs)

lemma lines_body (xs : List (SynthRow × ℕ)) :
    Lines.lines newline (encode (body xs)) = xs.map fun x => lineBytes x.1.cells := by
  induction xs with
  | nil => rfl
  | cons x xs ih =>
    rw [encode_body_cons, Lines.lines_cons (newline_not_mem_lineBytes (clean_cells x.1)), ih]
    rfl

lemma terminated_body (xs : List (SynthRow × ℕ)) :
    Lines.Terminated newline (encode (body xs)) := by
  induction xs with
  | nil => exact Lines.terminated_nil
  | cons x xs ih =>
    rw [encode_body_cons]
    refine Lines.terminated_iff.mpr (.inr ?_)
    rcases Lines.terminated_iff.mp ih with hnil | ⟨text, htext⟩
    · exact ⟨lineBytes x.1.cells, by rw [hnil]⟩
    · exact ⟨lineBytes x.1.cells ++ newline :: text, by rw [htext]; simp⟩

/-! ### What the loader makes of them -/

variable (fromCharsDouble : List UInt8 → Option (ℚ × List UInt8))

/-- A time is no number of seconds. -/
lemma time_not_reads (month day hour minute : ℕ) :
    ¬ ValidRows.Reads fromCharsDouble .int64 (encode (time month day hour minute)) := by
  have hdash : byte '-' ∈ encode (time month day hour minute) :=
    (byte_mem_encode (by decide)).mpr (by simp [time])
  have hhead : (encode (time month day hour minute)).head? = some (byte '2') :=
    (head?_encode (by decide)).mpr rfl
  rintro (hnil | hliteral)
  · rw [hnil] at hdash
    exact absurd hdash List.not_mem_nil
  · have hlit : ValidRows.IntLiteral 64 (encode (time month day hour minute)) := hliteral
    generalize encode (time month day hour minute) = f at hlit hdash hhead
    cases hlit with
    | pos _ _ hd => exact absurd (hd _ hdash) (by decide)
    | neg => exact absurd (Option.some.inj hhead) (by decide)

lemma nextField_record {f : List Char} (hf : ',' ∉ f) {fs : List (List Char)} (hne : fs ≠ []) :
    nextField (encode (record (f :: fs))) = (encode f, encode (record fs)) := by
  have hbytes : encode (record (f :: fs)) = encode f ++ comma :: encode (record fs) := by
    rw [record_cons f fs hne, encode_append, encode_cons, utf8EncodeChar_ascii (by decide),
      byte_comma]
    rfl
  rw [hbytes, nextField_append hf]

lemma chop_lineBytes (cells : List Cell) :
    ValidRows.chop (lineBytes cells) = encode (record (cells.map Cell.text)) := by
  have hcr : lineBytes cells = encode (record (cells.map Cell.text)) ++ [carriageReturn] :=
    encode_append _ _
  rw [ValidRows.chop, hcr]
  simp

lemma mem_zip_takeFields (p : List UInt8) :
    (.int64, (nextField (nextField (nextField p).2).2).1) ∈
      ValidRows.fieldTypes.zip (takeFields ValidRows.fieldTypes.length p) := by
  have htake : takeFields ValidRows.fieldTypes.length p =
      (nextField p).1 :: (nextField (nextField p).2).1 ::
        (nextField (nextField (nextField p).2).2).1 ::
        takeFields 14 (nextField (nextField (nextField p).2).2).2 := rfl
  rw [htake, ValidRows.fieldTypes, List.zip_cons_cons, List.zip_cons_cons, List.zip_cons_cons]
  exact List.mem_cons_of_mem _ (List.mem_cons_of_mem _ List.mem_cons_self)

/-- **No row that is written is valid**: its third field is the time of the pick-up, where the
loader looks for the seconds of the drop-off. -/
lemma parseRow_lineBytes (r : SynthRow) :
    (parseRow fromCharsDouble (lineBytes r.cells)).2 = false := by
  obtain ⟨rest, hrest, hcells⟩ : ∃ rest, rest ≠ [] ∧ r.cells =
      .int r.rowId :: .int r.vendor :: .str (time r.month r.day r.hour r.minute) :: rest :=
    ⟨_, List.cons_ne_nil _ _, rfl⟩
  have hcomma : ∀ cell ∈ r.cells, ',' ∉ cell.text := fun cell hcell =>
    (clean_cells r cell hcell).unquoted.noComma
  have htime : (Cell.str (time r.month r.day r.hour r.minute)).text =
      time r.month r.day r.hour r.minute := (plain_time _ _ _ _).quote_eq
  rw [hcells, List.forall_mem_cons, List.forall_mem_cons, List.forall_mem_cons] at hcomma
  obtain ⟨h0, h1, h2, -⟩ := hcomma
  rw [Bool.eq_false_iff, ne_eq, ValidRows.parseRow_valid, chop_lineBytes, hcells]
  intro hreads
  have hthird := hreads _ (mem_zip_takeFields _)
  rw [List.map_cons, List.map_cons, List.map_cons, nextField_record h0 (List.cons_ne_nil _ _),
    nextField_record h1 (List.cons_ne_nil _ _),
    nextField_record h2 (by simpa using hrest), htime] at hthird
  exact time_not_reads fromCharsDouble _ _ _ _ hthird

lemma load_main (owners : List String) (rows : List SynthRow) (owner : String) (path : String)
    {nt : ℕ} (hnt : 1 ≤ nt) (sched : Schedule) : ∃ s,
      loadPartitionCsv fromCharsDouble path (some (encode (main owners rows owner))) nt sched =
        .ok s ∧
      s.size = (assigned owners rows owner).length ∧ s.rows = [] := by
  have hfile : encode (main owners rows owner) =
      lineBytes headerCells ++ newline :: encode (body (assigned owners rows owner)) := by
    rw [main_eq, encode_writerow]
  have hheader : newline ∉ lineBytes headerCells := newline_not_mem_lineBytes clean_headerCells
  have hterm := terminated_body (assigned owners rows owner)
  have hload : loadPartitionCsv fromCharsDouble path (some (lineBytes headerCells ++ newline ::
      encode (body (assigned owners rows owner)))) nt sched = _ :=
    loadPartitionCsv_eq fromCharsDouble path hheader nt sched
  have hlines := lines_body (assigned owners rows owner)
  refine ⟨_, by rw [hfile, hload], ?_, ?_⟩
  · rw [size_store, offset_last hnt, ← Lines.length_lines, hlines, List.length_map]
  · rw [rows_store fromCharsDouble hterm hnt sched, sequentialRows, hlines]
    refine List.filterMap_eq_nil_iff.mpr fun cell hcell => ?_
    obtain ⟨line, hline, rfl⟩ := List.mem_map.mp hcell
    obtain ⟨x, -, rfl⟩ := List.mem_map.mp (List.mem_of_mem_filter hline)
    rw [parseRow_lineBytes]
    rfl

lemma not_loadable (h : assigned owners rows owner ≠ []) : ¬ Loadable R owners rows owner := by
  intro hload
  obtain ⟨s, hs, hcells⟩ := hload "" 1 ⟨id, fun _ => .refl _⟩ (Nat.le_refl 1)
  obtain ⟨s', hs', -, hrows⟩ := load_main R.fromChars owners rows owner "" (Nat.le_refl 1)
    ⟨id, fun _ => .refl _⟩
  obtain rfl := Except.ok.inj (hs'.symm.trans hs)
  rw [rows_eq, hcells, List.filterMap_map] at hrows
  obtain ⟨x, hx⟩ := List.exists_mem_of_ne_nil _ h
  have hnone := List.filterMap_eq_nil_iff.mp hrows x hx
  cases hnone

lemma loadable_of_nil (h : assigned owners rows owner = []) : Loadable R owners rows owner := by
  intro path nt sched hnt
  obtain ⟨s, hs, hsize, -⟩ := load_main R.fromChars owners rows owner path hnt sched
  refine ⟨s, hs, ?_⟩
  rw [SequentialLoad.cells, hsize, h]
  rfl

lemma inOneFile (h : owners ≠ []) (rows : List SynthRow) : InOneFile owners rows := by
  intro x hx
  have hlt : x.2 % owners.length < owners.length := Nat.mod_lt _ (List.length_pos_iff.mpr h)
  have hturn := List.getElem?_eq_getElem hlt
  refine ⟨owners[x.2 % owners.length], ⟨List.getElem_mem hlt, ?_⟩, ?_⟩
  · exact List.mem_filter.mpr ⟨hx, decide_eq_true hturn⟩
  · rintro owner ⟨-, howner⟩
    have hsome := of_decide_eq_true (List.mem_filter.mp howner).2
    exact Option.some.inj (hsome.symm.trans hturn)

/-- **The generated partitions are loadable** when there are no rows in them, and for no other
rows. -/
theorem loadable_iff (R : Readers) (owners : List String) (rows : List SynthRow) :
    ((∀ owner ∈ owners, Loadable R owners rows owner) ∧ InOneFile owners rows) ↔ rows = [] := by
  constructor
  · rintro ⟨hload, hone⟩
    cases rows with
    | nil => rfl
    | cons r rows =>
      have hfirst : (r, 0) ∈ (r :: rows).zipIdx := List.mem_cons_self
      obtain ⟨owner, ⟨howner, hmem⟩, -⟩ := hone (r, 0) hfirst
      exact absurd (hload owner howner) (not_loadable (List.ne_nil_of_mem hmem))
  · rintro rfl
    exact ⟨fun owner _ => loadable_of_nil rfl, fun x hx => absurd hx List.not_mem_nil⟩

/-- A trip of a mile from one zone to the next, in the first minute of the year. -/
def mile : SynthRow where
  rowId := 0
  vendor := 1
  passengers := 1
  dist := ⟨100, by decide⟩
  rate := 1
  pu := 1
  dropoff := 2
  fwd := false
  ptype := 2
  fare := ⟨500, by decide⟩
  extra := ⟨0, by decide⟩
  tolls := ⟨0, by decide⟩
  tip := ⟨0, by decide⟩
  total := ⟨580, by decide⟩
  month := 1
  day := 1
  hour := 0
  minute := 0
  tripMinutes := 4
  vendor_mem := by decide
  passengers_mem := by decide
  dist_ge := by decide
  rate_mem := by decide
  pu_range := by decide
  dropoff_range := by decide
  ptype_mem := by decide
  extra_mem := by decide
  tolls_mem := by decide
  tip_eq := fun _ => rfl
  month_range := by decide
  day_range := by decide
  hour_le := by decide
  minute_le := by decide
  tripMinutes_ge := by decide

example : String.ofList (writerow mile.cells) = "0,1,2017-01-01 00:00:00,2017-01-01 00:04:00," ++
    "1,1.0,1,1,2,N,2,5.0,0.0,0.5,0.0,0.0,0.3,5.8\r\n" := by decide

/-- The row of a single trip is lost. -/
theorem not_loadable_mile : ¬ ∀ (R : Readers) (owners : List String) (rows : List SynthRow),
    owners ≠ [] → owners.Nodup →
      (∀ owner ∈ owners, Loadable R owners rows owner) ∧ InOneFile owners rows := by
  intro h
  have hload := (h exactReaders ["C"] [mile] (by simp) (by simp)).1 "C" (by simp)
  refine not_loadable ?_ hload
  show assigned ["C"] [mile] "C" ≠ []
  exact List.ne_nil_of_mem (List.mem_filter.mpr ⟨List.mem_cons_self, rfl⟩)

end Mini2.GenDataset
