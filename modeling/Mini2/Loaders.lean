import Mathlib.Data.List.TakeWhile
import Mini2.Lib.Utf8
import Mini2.PyCsv
import Mini2.PyPartition
import Mini2.SequentialLoad

/-!
The two loaders on one file: the C++ one on its bytes, with threads that count lines, and the
Python one on its text, with the reader of the `csv` module.
-/

namespace Mini2.Loaders

open Mini2.Proto Mini2.Store Mini2.CsvLoad Mini2.PyPartition Mini2.PyCsv Mini2.Utf8

/-! ### Numbers as texts -/

def natOf (digits : List Char) : ℕ := digits.foldl (fun n d => 10 * n + (d.toNat - 48)) 0

/-- The text without its minus sign. -/
def unsigned (s : List Char) : List Char := if s.head? = some '-' then s.tail else s

def sign (s : List Char) : ℤ := if s.head? = some '-' then -1 else 1

def intOf (s : List Char) : ℤ := sign s * natOf (unsigned s)

/-- The number of a text with at most one decimal point. -/
def decimal (s : List Char) : ℚ :=
  let whole := (unsigned s).takeWhile (· ≠ '.')
  let frac := ((unsigned s).dropWhile (· ≠ '.')).tail
  sign s * (natOf whole + natOf frac / 10 ^ frac.length)

def Digits (s : List Char) : Prop := s ≠ [] ∧ ∀ d ∈ s, d.isDigit = true

structure CanonicalInt (bits : ℕ) (s : List Char) : Prop where
  digits : Digits (unsigned s)
  ge : -2 ^ (bits - 1) ≤ intOf s
  lt : intOf s < 2 ^ (bits - 1)

/-- A decimal number, without an exponent. On one side of the point there may be no digit. -/
def PlainDecimal (s : List Char) : Prop :=
  Digits (unsigned s) ∨ ∃ whole frac, Digits (whole ++ frac) ∧ unsigned s = whole ++ '.' :: frac

/-- How a text is read as a double, by `from_chars` and by `float`. What both make of a plain
decimal number is the double that is nearest to it, if one is in range. -/
structure Readers where
  fromChars : List UInt8 → Option (ℚ × List UInt8)
  float : List Char → Option ℚ
  nearest : ℚ → Option ℚ
  fromChars_plain : ∀ s, PlainDecimal s →
    fromChars (encode s) = (nearest (decimal s)).map fun v => (v, [])
  float_plain : ∀ s v, PlainDecimal s → nearest (decimal s) = some v → float s = some v

/-! ### The Python loader -/

/-- The white space `int` strips, as far as it is ASCII. -/
def isSpace (c : Char) : Bool :=
  c == ' ' || (9 ≤ c.toNat && c.toNat ≤ 13) || (28 ≤ c.toNat && c.toNat ≤ 31)

def strip (s : List Char) : List Char :=
  ((s.dropWhile isSpace).reverse.dropWhile isSpace).reverse

/-- Digits, with single underscores between them. -/
def unsignedInt (s : List Char) : Option ℕ :=
  if (s.splitOn '_').all fun part => !part.isEmpty && part.all Char.isDigit then
    some (natOf (s.filter Char.isDigit))
  else none

/-- `int(s)` for a text of ASCII characters, without the limit on the number of digits. -/
def int (s : List Char) : Option ℤ :=
  match strip s with
  | '-' :: s => (unsignedInt s).map fun n => -(n : ℤ)
  | '+' :: s => (unsignedInt s).map Int.ofNat
  | s => (unsignedInt s).map Int.ofNat

/-- An array of `bits`-bit integers takes the value, or overflows. -/
def append (bits : ℕ) (v : ℤ) : Option ℤ :=
  if -2 ^ (bits - 1) ≤ v ∧ v < 2 ^ (bits - 1) then some v else none

/-- What field `i` of a record adds to a column of integers. -/
def intCell (bits : ℕ) (row : List (List Char)) (i : ℕ) : Option ℤ := do
  let s ← row[i]?
  let v ← int s
  append bits v

variable (R : Readers)

def floatCell (row : List (List Char)) (i : ℕ) : Option ℚ := do
  let s ← row[i]?
  R.float s

/-- What a record adds to the columns, unless it raises an exception. -/
def csvRow (row : List (List Char)) : Option CsvRow := do
  let vendorId ← intCell 32 row 0
  let pickupDatetime ← intCell 64 row 1
  let dropoffDatetime ← intCell 64 row 2
  let passengerCount ← intCell 32 row 3
  let tripDistance ← floatCell R row 4
  let ratecodeId ← intCell 32 row 5
  let f6 ← row[6]?
  let puLocationId ← intCell 32 row 7
  let doLocationId ← intCell 32 row 8
  let paymentType ← intCell 32 row 9
  let fareAmount ← floatCell R row 10
  let extra ← floatCell R row 11
  let mtaTax ← floatCell R row 12
  let tipAmount ← floatCell R row 13
  let tollsAmount ← floatCell R row 14
  let improvementSurcharge ← floatCell R row 15
  let totalAmount ← floatCell R row 16
  return {
    vendorId := vendorId
    pickupDatetime := pickupDatetime
    dropoffDatetime := dropoffDatetime
    passengerCount := passengerCount
    tripDistance := tripDistance
    ratecodeId := ratecodeId
    f6 := String.ofList f6
    puLocationId := puLocationId
    doLocationId := doLocationId
    paymentType := paymentType
    fareAmount := fareAmount
    extra := extra
    mtaTax := mtaTax
    tipAmount := tipAmount
    tollsAmount := tollsAmount
    improvementSurcharge := improvementSurcharge
    totalAmount := totalAmount }

/-- `Partition.load` of a file, unless it raises an exception. -/
def partitionLoad (text : List Char) (sortColumn : Option String) : Option Partition := do
  match ← reader text with
  | [] => none
  | _ :: records => (records.mapM (csvRow R)).map fun rows => Partition.load rows sortColumn

def emitted (p : Partition) : List TaxiRow := (List.range p.n).map p.rowToProto

/-! ### The files -/

def csvColumns : List Column :=
  [.vendorId, .pickupDatetime, .dropoffDatetime, .passengerCount, .tripDistance, .ratecodeId,
    .storeAndFwdFlag, .puLocationId, .doLocationId, .paymentType, .fareAmount, .extra, .mtaTax,
    .tipAmount, .tollsAmount, .improvementSurcharge, .totalAmount]

/-- A field as a column of the typecode has it. -/
def Canonical : Typecode → List Char → Prop
  | .i, s => CanonicalInt 32 s
  | .q, s => CanonicalInt 64 s
  | .d, s => PlainDecimal s ∧ (R.nearest (decimal s)).isSome = true
  | .B, s => Unquoted s

/-- A data line, which ends, if it does, with or without a carriage return. -/
structure DataLine where
  cell : Column → List Char
  canonical : ∀ c, Canonical R (colSpec c) (cell c)
  lineEnd : List Char
  ended : LineEnd lineEnd

def DataLine.fields {R : Readers} (l : DataLine R) : List (List Char) := csvColumns.map l.cell

/-- The data lines of a file; `final` is whether the last of them is ended. -/
def body {R : Readers} (final : Bool) : List (DataLine R) → List Char
  | [] => []
  | [l] => record l.fields ++ if final then l.lineEnd else []
  | l :: lines => record l.fields ++ (l.lineEnd ++ body final lines)

/-- A file with a header line and canonical data lines. The header line is ended, unless no data
line follows. -/
structure CsvFile where
  header : List Char
  oneLine : OneLine header
  headerEnd : List Char
  ended : LineEnd headerEnd ∨ headerEnd = []
  lines : List (DataLine R)
  alone : headerEnd = [] → lines = []
  final : Bool

def CsvFile.text {R : Readers} (f : CsvFile R) : List Char :=
  f.header ++ (f.headerEnd ++ body f.final f.lines)

/-! ### The characters of a number -/

variable {R} {s digits : List Char} {bits : ℕ} {c d : Char}

lemma isDigit_bounds (h : d.isDigit = true) : 48 ≤ d.toNat ∧ d.toNat ≤ 57 := by
  unfold Char.isDigit at h
  simp only [ge_iff_le, Bool.and_eq_true, decide_eq_true_eq] at h
  exact ⟨h.1, h.2⟩

def NumChar (c : Char) : Prop := c.isDigit = true ∨ c = '-' ∨ c = '.'

lemma NumChar.bounds (h : NumChar c) : c.toNat < 58 ∧ 45 ≤ c.toNat := by
  rcases h with h | rfl | rfl
  · have := isDigit_bounds h
    omega
  · decide
  · decide

lemma NumChar.ascii (h : NumChar c) : Ascii c := by
  have := h.bounds
  unfold Ascii
  omega

lemma NumChar.ne (h : NumChar c) {a : Char} (ha : a.toNat < 45) : c ≠ a := by
  rintro rfl
  have := h.bounds
  omega

lemma NumChar.isNewline (h : NumChar c) : isNewline c = false := by
  simp [PyCsv.isNewline, h.ne (a := '\n') (by decide), h.ne (a := '\r') (by decide)]

lemma NumChar.isSpace (h : NumChar c) : isSpace c = false := by
  have hb := h.bounds
  have h1 : ¬ c.toNat ≤ 13 := by omega
  have h2 : ¬ c.toNat ≤ 31 := by omega
  simp [Loaders.isSpace, h.ne (a := ' ') (by decide), h1, h2]

structure Numeric (s : List Char) : Prop where
  ne_nil : s ≠ []
  chars : ∀ c ∈ s, NumChar c

lemma mem_unsigned (h : c ∈ s) : c = '-' ∨ c ∈ unsigned s := by
  unfold unsigned
  split
  next hs =>
    cases s with
    | nil => cases h
    | cons a s =>
      obtain rfl : a = '-' := Option.some.inj hs
      exact List.mem_cons.mp h
  next => exact .inr h

lemma Numeric.of_unsigned (hne : unsigned s ≠ []) (h : ∀ c ∈ unsigned s, NumChar c) :
    Numeric s where
  ne_nil := by
    rintro rfl
    exact hne rfl
  chars c hc := (mem_unsigned hc).elim (fun heq => .inr (.inl heq)) (h c)

lemma CanonicalInt.numeric (h : CanonicalInt bits s) : Numeric s :=
  .of_unsigned h.digits.1 fun c hc => .inl (h.digits.2 c hc)

lemma PlainDecimal.numeric (h : PlainDecimal s) : Numeric s := by
  rcases h with hd | ⟨whole, frac, hd, heq⟩
  · exact .of_unsigned hd.1 fun c hc => .inl (hd.2 c hc)
  · refine .of_unsigned (by simp [heq]) fun c hc => ?_
    rw [heq] at hc
    rcases List.mem_append.mp hc with hc | hc
    · exact .inl (hd.2 c (List.mem_append_left frac hc))
    · rcases List.mem_cons.mp hc with rfl | hc
      · exact .inr (.inr rfl)
      · exact .inl (hd.2 c (List.mem_append_right whole hc))

lemma Numeric.unquoted (h : Numeric s) : Unquoted s where
  noNewline c hc := (h.chars c hc).isNewline
  noComma hc := (h.chars _ hc).ne (a := ',') (by decide) rfl
  noQuote hq := by
    have hc : '"' ∈ s := List.mem_of_mem_head? hq
    exact (h.chars _ hc).ne (a := '"') (by decide) rfl
  ne_nil := h.ne_nil

lemma Canonical.unquoted {t : Typecode} (h : Canonical R t s) : Unquoted s :=
  match t with
  | .i => CanonicalInt.numeric h |>.unquoted
  | .q => CanonicalInt.numeric h |>.unquoted
  | .d => h.1.numeric.unquoted
  | .B => h

/-! ### Reading numbers -/

lemma Numeric.encode_eq (h : Numeric s) : encode s = s.map byte :=
  encode_of_ascii fun c hc => (h.chars c hc).ascii

lemma isDigit_byte (h : d.isDigit = true) : CsvLoad.isDigit (byte d) = true := by
  have hb := isDigit_bounds h
  have hn : (byte d).toNat = d.toNat := toNat_byte (NumChar.ascii (.inl h))
  unfold CsvLoad.isDigit
  rw [Bool.and_eq_true, decide_eq_true_eq, decide_eq_true_eq, UInt8.le_iff_toNat_le,
    UInt8.le_iff_toNat_le, hn]
  exact hb

lemma foldl_byte (h : ∀ d ∈ digits, d.isDigit = true) :
    (digits.map byte).foldl (fun (n : ℕ) d => 10 * n + (d.toNat - 48)) 0 = natOf digits := by
  unfold natOf
  rw [List.foldl_map]
  refine List.foldl_ext _ _ _ fun n d hd => ?_
  rw [toNat_byte (NumChar.ascii (.inl (h d hd)))]

lemma eq_of_head? (h : s.head? = some '-') : s = '-' :: unsigned s := by
  cases s with
  | nil => cases h
  | cons c s =>
    obtain rfl : c = '-' := Option.some.inj h
    rfl

lemma fromChars_canonical (h : CanonicalInt bits s) :
    fromChars bits (encode s) = some (intOf s, []) := by
  obtain ⟨⟨hne, hdigits⟩, hge, hlt⟩ := id h
  have hbytes : ∀ b ∈ (unsigned s).map byte, CsvLoad.isDigit b = true := by
    intro b hb
    obtain ⟨d, hd, rfl⟩ := List.mem_map.mp hb
    exact isDigit_byte (hdigits d hd)
  have hhead : ((encode s).head? == some CsvLoad.minus) = decide (s.head? = some '-') := by
    have hiff : (encode s).head? = some CsvLoad.minus ↔ s.head? = some '-' :=
      head?_encode (a := '-') (by decide)
    rw [Bool.eq_iff_iff, beq_iff_eq, decide_eq_true_eq]
    exact hiff
  have hrest : (if s.head? = some '-' then (encode s).tail else encode s) =
      (unsigned s).map byte := by
    rw [h.numeric.encode_eq]
    unfold unsigned
    split
    next => exact List.map_tail.symm
    next => rfl
  have hn := foldl_byte hdigits
  unfold fromChars
  simp only [hhead, decide_eq_true_eq, hrest]
  rw [List.takeWhile_eq_self_iff.mpr hbytes, List.dropWhile_eq_nil_iff.mpr hbytes, hn,
    if_neg (by simpa using hne)]
  have hv : (if s.head? = some '-' then -(natOf (unsigned s) : ℤ) else natOf (unsigned s)) =
      intOf s := by
    unfold intOf sign
    split <;> simp
  rw [hv, if_pos ⟨hge, hlt⟩]

lemma parseCell_eq {A : Type} [Zero A] {read : List UInt8 → Option (A × List UInt8)} {v : A}
    (h : Numeric s) (hr : read (encode s) = some (v, [])) :
    parseCell read (encode s) = (v, true) := by
  unfold parseCell
  rw [if_neg (fun hnil => h.ne_nil (encode_eq_nil.mp hnil)), hr]
  rfl

lemma strip_eq (h : ∀ c ∈ s, isSpace c = false) : strip s = s := by
  have hkeep : ∀ l : List Char, (∀ c ∈ l, isSpace c = false) → l.dropWhile isSpace = l := by
    intro l hl
    refine List.dropWhile_eq_self_iff.mpr fun hlen => ?_
    rw [hl _ (List.getElem_mem hlen)]
    exact Bool.false_ne_true
  unfold strip
  rw [hkeep s h, hkeep s.reverse fun c hc => h c (List.mem_reverse.mp hc), List.reverse_reverse]

lemma unsignedInt_eq (h : Digits digits) : unsignedInt digits = some (natOf digits) := by
  obtain ⟨hne, hdigits⟩ := h
  have hunderscore : '_' ∉ digits := fun hm => by
    have := hdigits _ hm
    revert this
    decide
  unfold unsignedInt
  rw [List.splitOn_eq_singleton hunderscore, List.filter_eq_self.mpr hdigits]
  rw [if_pos]
  simpa [hne] using hdigits

lemma int_canonical (h : CanonicalInt bits s) : int s = some (intOf s) := by
  have hstrip : strip s = s := strip_eq fun c hc => (h.numeric.chars c hc).isSpace
  have hread := unsignedInt_eq h.digits
  unfold int
  rw [hstrip]
  by_cases hs : s.head? = some '-'
  · rw [eq_of_head? hs]
    simp only
    rw [hread]
    simp [intOf, sign, unsigned]
  · have hself : unsigned s = s := if_neg hs
    rw [hself] at hread
    have hplus : s.head? ≠ some '+' := fun hp =>
      (h.numeric.chars _ (List.mem_of_mem_head? hp)).ne (a := '+') (by decide) rfl
    have hv : intOf s = Int.ofNat (natOf s) := by simp [intOf, sign, hs, hself]
    split
    next => exact absurd rfl hs
    next => exact absurd rfl hplus
    next => rw [hread, hv]; rfl

lemma intCell_eq (h : CanonicalInt bits s) {row : List (List Char)} {i : ℕ}
    (hi : row[i]? = some s) : intCell bits row i = some (intOf s) := by
  unfold intCell
  rw [hi]
  show (int s >>= append bits) = _
  rw [int_canonical h]
  exact if_pos ⟨h.ge, h.lt⟩

/-! ### What the Python loader makes of a file -/

def Readers.double (R : Readers) (s : List Char) : ℚ := (R.nearest (decimal s)).getD 0

def DataLine.row (l : DataLine R) : CsvRow where
  vendorId := intOf (l.cell .vendorId)
  pickupDatetime := intOf (l.cell .pickupDatetime)
  dropoffDatetime := intOf (l.cell .dropoffDatetime)
  passengerCount := intOf (l.cell .passengerCount)
  tripDistance := R.double (l.cell .tripDistance)
  ratecodeId := intOf (l.cell .ratecodeId)
  f6 := String.ofList (l.cell .storeAndFwdFlag)
  puLocationId := intOf (l.cell .puLocationId)
  doLocationId := intOf (l.cell .doLocationId)
  paymentType := intOf (l.cell .paymentType)
  fareAmount := R.double (l.cell .fareAmount)
  extra := R.double (l.cell .extra)
  mtaTax := R.double (l.cell .mtaTax)
  tipAmount := R.double (l.cell .tipAmount)
  tollsAmount := R.double (l.cell .tollsAmount)
  improvementSurcharge := R.double (l.cell .improvementSurcharge)
  totalAmount := R.double (l.cell .totalAmount)

variable {l : DataLine R} {lines : List (DataLine R)} {final : Bool}

lemma nearest_eq (h : Canonical R .d s) : R.nearest (decimal s) = some (R.double s) := by
  obtain ⟨v, hv⟩ := Option.isSome_iff_exists.mp h.2
  unfold Readers.double
  rw [hv]
  rfl

lemma floatCell_eq (h : Canonical R .d s) {row : List (List Char)} {i : ℕ}
    (hi : row[i]? = some s) : floatCell R row i = some (R.double s) := by
  unfold floatCell
  rw [hi]
  exact R.float_plain s _ h.1 (nearest_eq h)

lemma DataLine.canonical_of (l : DataLine R) {c : Column} {t : Typecode} (hc : colSpec c = t) :
    Canonical R t (l.cell c) := hc ▸ l.canonical c

lemma csvRow_fields (l : DataLine R) : csvRow R l.fields = some l.row := by
  have hint : ∀ c, colSpec c = .i → ∀ i, l.fields[i]? = some (l.cell c) →
      intCell 32 l.fields i = some (intOf (l.cell c)) :=
    fun c hc i hi => intCell_eq (l.canonical_of hc) hi
  have hfloat : ∀ c, colSpec c = .d → ∀ i, l.fields[i]? = some (l.cell c) →
      floatCell R l.fields i = some (R.double (l.cell c)) :=
    fun c hc i hi => floatCell_eq (l.canonical_of hc) hi
  unfold csvRow
  rw [hint .vendorId rfl 0 rfl, intCell_eq (l.canonical .pickupDatetime) (rfl : l.fields[1]? = _),
    intCell_eq (l.canonical .dropoffDatetime) (rfl : l.fields[2]? = _),
    hint .passengerCount rfl 3 rfl, hfloat .tripDistance rfl 4 rfl, hint .ratecodeId rfl 5 rfl,
    hint .puLocationId rfl 7 rfl, hint .doLocationId rfl 8 rfl, hint .paymentType rfl 9 rfl,
    hfloat .fareAmount rfl 10 rfl, hfloat .extra rfl 11 rfl, hfloat .mtaTax rfl 12 rfl,
    hfloat .tipAmount rfl 13 rfl, hfloat .tollsAmount rfl 14 rfl,
    hfloat .improvementSurcharge rfl 15 rfl, hfloat .totalAmount rfl 16 rfl]
  rfl

lemma DataLine.unquoted (l : DataLine R) : ∀ f ∈ l.fields, Unquoted f := by
  intro f hf
  obtain ⟨c, -, rfl⟩ := List.mem_map.mp hf
  exact (l.canonical c).unquoted

lemma DataLine.fields_ne_nil (l : DataLine R) : l.fields ≠ [] := by
  simp [DataLine.fields, csvColumns]

lemma body_cons (h : final = true ∨ lines ≠ []) :
    body final (l :: lines) = record l.fields ++ (l.lineEnd ++ body final lines) := by
  cases lines with
  | nil =>
    obtain rfl : final = true := h.resolve_right fun hne => hne rfl
    simp [body]
  | cons l' lines => rfl

lemma noNewline_record {fields : List (List Char)} (h : ∀ f ∈ fields, Unquoted f) :
    NoNewline (record fields) := by
  induction fields with
  | nil => exact nofun
  | cons field fields ih =>
    have hfield := (h field List.mem_cons_self).noNewline
    by_cases hlast : fields = []
    · subst hlast
      simpa [record, List.intercalate] using hfield
    · rw [record_cons field fields hlast]
      intro c hc
      rcases List.mem_append.mp hc with hc | hc
      · exact hfield c hc
      · rcases List.mem_cons.mp hc with rfl | hc
        · decide
        · exact ih (fun f hf => h f (List.mem_cons_of_mem _ hf)) c hc

lemma record_ne_nil (l : DataLine R) : record l.fields ≠ [] := by
  have hne := (l.canonical .vendorId).unquoted.ne_nil
  have hrecord : record l.fields = l.cell .vendorId ++ ',' :: record (l.fields.tail) :=
    record_cons _ _ (by simp)
  rw [hrecord]
  simp

/-- The records of the data lines are their fields, whether or not the last line is ended. -/
lemma readRecords_body : readRecords .start (fileLines (body final lines)) =
    some (lines.map DataLine.fields) := by
  induction lines with
  | nil => rfl
  | cons l lines ih =>
    have hn := noNewline_record l.unquoted
    have hline : ∀ e, e = [] ∨ LineEnd e →
        processLine .start (record l.fields ++ e) = some ⟨.startRecord, [], l.fields⟩ :=
      fun e he => processLine_record he l.unquoted l.fields_ne_nil [] (.inl rfl)
    by_cases hlast : final = true ∨ lines ≠ []
    · rw [body_cons hlast, fileLines_append hn l.ended,
        readRecords_line (hline _ (.inr l.ended)) rfl, ih]
      rfl
    · obtain ⟨rfl, rfl⟩ : final = false ∧ lines = [] := by simpa using hlast
      have hbody : body false [l] = record l.fields := by simp [body]
      have hplain := hline [] (.inl rfl)
      rw [List.append_nil] at hplain
      rw [hbody, fileLines_last hn (record_ne_nil l), readRecords_line hplain rfl]
      rfl

lemma holds_load (rows : List CsvRow) : (Partition.load rows none).Holds rows :=
  ⟨fun _ => rfl, rfl, nofun⟩

/-- The Python loader has a row for each data line, whatever column it sorts by. -/
lemma partitionLoad_rows {f : CsvFile R} (he : LineEnd f.headerEnd) (sortColumn : Option String) :
    partitionLoad R f.text sortColumn =
      some (Partition.load (f.lines.map DataLine.row) sortColumn) := by
  obtain ⟨r, hr, hstate⟩ := processLine_oneLine f.oneLine he
  have hread : reader f.text = some (r.fields :: f.lines.map DataLine.fields) := by
    unfold reader CsvFile.text
    rw [fileLines_append f.oneLine.noNewline he, readRecords_line hr hstate,
      readRecords_body]
    rfl
  have hrows : (f.lines.map DataLine.fields).mapM (csvRow R) = some (f.lines.map DataLine.row) := by
    generalize f.lines = lines
    induction lines with
    | nil => rfl
    | cons l lines ih =>
      rw [List.map_cons, List.mapM_cons, csvRow_fields, ih]
      rfl
  unfold partitionLoad
  rw [hread]
  show ((f.lines.map DataLine.fields).mapM (csvRow R)).map _ = _
  rw [hrows]
  rfl

lemma partitionLoad_text {f : CsvFile R} (he : LineEnd f.headerEnd) :
    ∃ p, partitionLoad R f.text none = some p ∧
      emitted p = f.lines.map fun l => l.row.typed := by
  refine ⟨_, partitionLoad_rows he none, ?_⟩
  unfold emitted
  rw [(holds_load _).map_rowToProto, List.map_map]
  rfl

/-! ### What the C++ loader makes of a file -/

/-- The row of a data line with the flag as the C++ loader reads it. -/
def DataLine.cppRow (l : DataLine R) : TaxiRow :=
  { l.row.typed with
    storeAndFwdFlag := decide ((l.cell .storeAndFwdFlag).head? = some 'Y' ∨
      (l.cell .storeAndFwdFlag).head? = some 'y') }

lemma byte_newline : byte '\n' = newline := by decide

lemma byte_comma : byte ',' = CsvLoad.comma := by decide

lemma byte_carriageReturn : byte '\r' = carriageReturn := by decide

lemma findIdx?_comma (hc : ',' ∉ s) : (encode s).findIdx? (· == comma) = none := by
  refine List.findIdx?_eq_none_iff.mpr fun b hb => ?_
  rw [beq_eq_false_iff_ne]
  rintro rfl
  exact hc ((byte_mem_encode (by decide)).mp (byte_comma ▸ hb))

lemma nextField_append (hc : ',' ∉ s) (rest : List UInt8) :
    nextField (encode s ++ comma :: rest) = (encode s, rest) := by
  have hnone := findIdx?_comma hc
  have hfind : (encode s ++ comma :: rest).findIdx? (· == comma) = some (encode s).length := by
    rw [List.findIdx?_append, hnone, List.findIdx?_cons]
    simp
  unfold nextField
  rw [hfind]
  simp [List.drop_append]

lemma nextField_last (hc : ',' ∉ s) : nextField (encode s) = (encode s, []) := by
  have hnone := findIdx?_comma hc
  unfold nextField
  rw [hnone]

lemma takeFields_record {fields : List (List Char)} (h : ∀ f ∈ fields, Unquoted f) :
    takeFields fields.length (encode (record fields)) = fields.map encode := by
  induction fields with
  | nil => rfl
  | cons field fields ih =>
    have hc := (h field List.mem_cons_self).noComma
    by_cases hlast : fields = []
    · subst hlast
      have hrecord : record [field] = field := by simp [record, List.intercalate]
      show takeFields 1 _ = _
      rw [hrecord, takeFields, nextField_last hc]
      rfl
    · have hbytes : encode (record (field :: fields)) =
          encode field ++ comma :: encode (record fields) := by
        rw [record_cons field fields hlast, encode_append, encode_cons,
          utf8EncodeChar_ascii (by decide), byte_comma]
        rfl
      rw [List.length_cons, takeFields, hbytes, nextField_append hc,
        ih fun f hf => h f (List.mem_cons_of_mem _ hf)]
      rfl

/-- The bytes of a data line in front of its newline. -/
def DataLine.bytes (l : DataLine R) : List UInt8 := encode (record l.fields ++ l.lineEnd.dropLast)

lemma strip_bytes (l : DataLine R) :
    (if l.bytes.getLast? = some carriageReturn then l.bytes.dropLast else l.bytes) =
      encode (record l.fields) := by
  have hn := noNewline_record l.unquoted
  obtain ⟨cell, canonical, lineEnd, ended⟩ := l
  unfold DataLine.bytes
  cases ended with
  | lf =>
    rw [if_neg]
    · simp
    · intro hlast
      have hmem := List.mem_of_getLast? hlast
      rw [List.dropLast_singleton, List.append_nil, ← byte_carriageReturn] at hmem
      have hcr := (byte_mem_encode (a := '\r') (by decide)).mp hmem
      exact absurd (hn _ hcr) (by decide)
  | crlf =>
    have hbytes : ∀ text, encode (text ++ ['\r', '\n'].dropLast) =
        encode text ++ [carriageReturn] := fun text => encode_append text _
    rw [hbytes]
    simp

lemma parseInt_canonical (h : CanonicalInt bits s) :
    parseCell (fromChars bits) (encode s) = (intOf s, true) :=
  parseCell_eq h.numeric (fromChars_canonical h)

lemma parseF64_canonical (h : Canonical R .d s) :
    parseF64 R.fromChars (encode s) = (R.double s, true) := by
  refine parseCell_eq h.1.numeric ?_
  rw [R.fromChars_plain _ h.1, nearest_eq h]
  rfl

lemma parseRow_bytes (l : DataLine R) : parseRow R.fromChars l.bytes = (l.cppRow, true) := by
  have hfields : takeFields 17 (encode (record l.fields)) =
      csvColumns.map fun c => encode (l.cell c) := by
    have hall := takeFields_record l.unquoted
    rw [DataLine.fields, List.map_map] at hall
    exact hall
  have hi32 : ∀ c, colSpec c = .i → parseI32 (encode (l.cell c)) = (intOf (l.cell c), true) :=
    fun c hc => parseInt_canonical (l.canonical_of hc)
  have hi64 : ∀ c, colSpec c = .q → parseI64 (encode (l.cell c)) = (intOf (l.cell c), true) :=
    fun c hc => parseInt_canonical (l.canonical_of hc)
  have hf64 : ∀ c, colSpec c = .d →
      parseF64 R.fromChars (encode (l.cell c)) = (R.double (l.cell c), true) :=
    fun c hc => parseF64_canonical (l.canonical_of hc)
  have hflag : (decide ((encode (l.cell .storeAndFwdFlag)).head? = some 89) ||
      decide ((encode (l.cell .storeAndFwdFlag)).head? = some 121)) =
        decide ((l.cell .storeAndFwdFlag).head? = some 'Y' ∨
          (l.cell .storeAndFwdFlag).head? = some 'y') := by
    rw [← Bool.decide_or]
    exact decide_eq_decide.mpr
      (or_congr (head?_encode (a := 'Y') (by decide)) (head?_encode (a := 'y') (by decide)))
  unfold parseRow
  rw [strip_bytes]
  simp only [hfields, csvColumns, List.map_cons, List.map_nil, List.getD_cons_zero,
    List.getD_cons_succ]
  rw [hi32 .vendorId rfl, hi64 .pickupDatetime rfl, hi64 .dropoffDatetime rfl,
    hi32 .passengerCount rfl, hf64 .tripDistance rfl, hi32 .ratecodeId rfl,
    hi32 .puLocationId rfl, hi32 .doLocationId rfl, hi32 .paymentType rfl,
    hf64 .fareAmount rfl, hf64 .extra rfl, hf64 .mtaTax rfl, hf64 .tipAmount rfl,
    hf64 .tollsAmount rfl, hf64 .improvementSurcharge rfl, hf64 .totalAmount rfl]
  rw [hflag]
  rfl

lemma encode_lineEnd (he : LineEnd lineEnd) (line text : List Char) :
    encode (line ++ (lineEnd ++ text)) =
      encode (line ++ lineEnd.dropLast) ++ newline :: encode text := by
  cases he with
  | lf =>
    rw [List.dropLast_singleton, List.append_nil, encode_append]
    rfl
  | crlf =>
    have hcut : line ++ (['\r', '\n'] ++ text) = (line ++ ['\r']) ++ ('\n' :: text) := by simp
    rw [hcut, encode_append]
    rfl

lemma newline_not_mem (hn : NoNewline line) (he : LineEnd lineEnd) :
    newline ∉ encode (line ++ lineEnd.dropLast) := by
  rw [← byte_newline, byte_mem_encode (by decide)]
  intro hm
  rcases List.mem_append.mp hm with hm | hm
  · exact absurd (hn _ hm) (by decide)
  · cases he <;> exact absurd hm (by decide)

lemma bytes_ne_nil (l : DataLine R) : l.bytes ≠ [] := by
  unfold DataLine.bytes
  rw [Ne, encode_eq_nil, List.append_eq_nil_iff]
  exact fun h => record_ne_nil l h.1

lemma encode_body_cons (h : final = true ∨ lines ≠ []) :
    encode (body final (l :: lines)) = l.bytes ++ newline :: encode (body final lines) := by
  rw [body_cons h, encode_lineEnd l.ended]
  rfl

lemma newline_not_mem_bytes (l : DataLine R) : newline ∉ l.bytes :=
  newline_not_mem (noNewline_record l.unquoted) l.ended

/-- If the last line is ended, the C++ loader has a row for each data line. -/
lemma sequentialRows_body :
    sequentialRows R.fromChars (encode (body true lines)) = lines.map DataLine.cppRow := by
  have hlines : Lines.lines newline (encode (body true lines)) = lines.map DataLine.bytes := by
    induction lines with
    | nil => rfl
    | cons l lines ih =>
      rw [encode_body_cons (.inl rfl), Lines.lines_cons (newline_not_mem_bytes l), ih]
      rfl
  have hkeep : (lines.map DataLine.bytes).filter (· ≠ []) = lines.map DataLine.bytes := by
    refine List.filter_eq_self.mpr fun bytes hm => ?_
    obtain ⟨l, -, rfl⟩ := List.mem_map.mp hm
    exact decide_eq_true (bytes_ne_nil l)
  unfold sequentialRows
  rw [hlines, hkeep, List.map_map, List.filterMap_map]
  have hrow : ∀ l : DataLine R, ((fun c : TaxiRow × Bool => if c.2 then some c.1 else none) ∘
      parseRow R.fromChars ∘ DataLine.bytes) l = some l.cppRow := fun l => by
    show (if (parseRow R.fromChars l.bytes).2 then some (parseRow R.fromChars l.bytes).1
      else none) = _
    rw [parseRow_bytes]
    rfl
  rw [funext hrow, List.filterMap_eq_map']

lemma terminated_body : Lines.Terminated newline (encode (body true lines)) := by
  induction lines with
  | nil => exact Lines.terminated_nil
  | cons l lines ih =>
    rw [encode_body_cons (.inl rfl)]
    refine Lines.terminated_iff.mpr (.inr ?_)
    rcases Lines.terminated_iff.mp ih with hnil | ⟨text, htext⟩
    · exact ⟨l.bytes, by rw [hnil]⟩
    · exact ⟨l.bytes ++ newline :: text, by rw [htext]; simp⟩

lemma count_body (hne : lines ≠ []) :
    (encode (body false lines)).count newline + 1 = lines.length := by
  induction lines with
  | nil => exact absurd rfl hne
  | cons l lines ih =>
    by_cases hlast : lines = []
    · subst hlast
      have hbody : body false [l] = record l.fields := by simp [body]
      have hnot := newline_not_mem (noNewline_record l.unquoted) .lf
      rw [List.dropLast_singleton, List.append_nil] at hnot
      rw [hbody, List.count_eq_zero.mpr hnot]
      rfl
    · have hrest := ih hlast
      rw [encode_body_cons (.inr hlast), List.count_append,
        List.count_eq_zero.mpr (newline_not_mem_bytes l), List.count_cons_self, List.length_cons]
      omega

lemma encode_text {f : CsvFile R} (he : LineEnd f.headerEnd) : encode f.text =
    encode (f.header ++ f.headerEnd.dropLast) ++ newline :: encode (body f.final f.lines) :=
  encode_lineEnd he f.header _

lemma length_rows_le (s : PartitionStore) : s.rows.length ≤ s.size := by
  unfold PartitionStore.rows
  rw [List.length_map]
  exact (List.length_filter_le _ _).trans (Nat.le_of_eq List.length_range)

/-! ### The two loaders -/

/-- Both loaders load the file, and the rows they emit are the same. -/
def SameRows (R : Readers) (path : String) (text : List Char) (nt : ℕ) (sched : Schedule) : Prop :=
  ∃ s p, loadPartitionCsv R.fromChars path (some (encode text)) nt sched = .ok s ∧
    partitionLoad R text none = some p ∧ s.rows = emitted p

/-- The flags `Y` and `y` are set for both loaders, and `1` for the Python one. -/
lemma cppRow_eq_iff (l : DataLine R) :
    l.cppRow = l.row.typed ↔ (l.cell .storeAndFwdFlag).head? ≠ some '1' := by
  have hflag : flag l.row.f6 = decide ((l.cell .storeAndFwdFlag).head? = some 'Y' ∨
      (l.cell .storeAndFwdFlag).head? = some 'y' ∨
      (l.cell .storeAndFwdFlag).head? = some '1') := by
    show flag (String.ofList (l.cell .storeAndFwdFlag)) = _
    unfold flag
    rw [String.toList_ofList]
    cases l.cell .storeAndFwdFlag with
    | nil => rfl
    | cons c s =>
      rw [Bool.eq_iff_iff]
      simp [or_assoc]
  have hset : l.cppRow = l.row.typed ↔ decide ((l.cell .storeAndFwdFlag).head? = some 'Y' ∨
      (l.cell .storeAndFwdFlag).head? = some 'y') = flag l.row.f6 :=
    ⟨congrArg TaxiRow.storeAndFwdFlag, congrArg fun b => { l.row.typed with storeAndFwdFlag := b }⟩
  rw [hset, hflag, decide_eq_decide]
  constructor
  · intro hiff h1
    rw [h1] at hiff
    exact absurd hiff (by decide)
  · intro h1
    simp [h1]

def loaded (f : CsvFile R) (nt : ℕ) (sched : Schedule) : PartitionStore :=
  store (offset (encode (body f.final f.lines)) nt nt)
    (sched.order (writes R.fromChars (encode (body f.final f.lines)) nt))

lemma loadPartitionCsv_text {f : CsvFile R} (he : LineEnd f.headerEnd) (path : String) (nt : ℕ)
    (sched : Schedule) : loadPartitionCsv R.fromChars path (some (encode f.text)) nt sched =
      .ok (loaded f nt sched) := by
  rw [encode_text he]
  exact SequentialLoad.loadPartitionCsv_eq R.fromChars path
    (newline_not_mem f.oneLine.noNewline he) nt sched

lemma rows_loaded {f : CsvFile R} (hend : f.final = true ∨ f.lines = []) {nt : ℕ} (hnt : 1 ≤ nt)
    (sched : Schedule) : (loaded f nt sched).rows = f.lines.map DataLine.cppRow := by
  have hbody : body f.final f.lines = body true f.lines := by
    rcases hend with hfinal | hnil
    · rw [hfinal]
    · rw [hnil]
      rfl
  unfold loaded
  rw [hbody, SequentialLoad.rows_store R.fromChars terminated_body hnt sched, sequentialRows_body]

/-- Without the end of the last line there is a row less. -/
lemma length_loaded {f : CsvFile R} (hfinal : f.final = false) (hne : f.lines ≠ []) {nt : ℕ}
    (hnt : 1 ≤ nt) (sched : Schedule) :
    (loaded f nt sched).rows.length < f.lines.length := by
  have hsize : (loaded f nt sched).size = (encode (body false f.lines)).count newline := by
    unfold loaded
    rw [SequentialLoad.size_store, SequentialLoad.offset_last hnt, hfinal]
  have hcount := count_body hne
  have hle := length_rows_le (loaded f nt sched)
  omega

/-- With the header ended, neither loader fails, so that only the rows may differ. -/
lemma sameRows_loaded {f : CsvFile R} (he : LineEnd f.headerEnd) (path : String) (nt : ℕ)
    (sched : Schedule) : SameRows R path f.text nt sched ↔
      (loaded f nt sched).rows = f.lines.map fun l => l.row.typed := by
  obtain ⟨p, hp, hpy⟩ := partitionLoad_text he
  have hload := loadPartitionCsv_text he path nt sched
  rw [← hpy]
  constructor
  · rintro ⟨s, p', hs, hp', hrows⟩
    obtain rfl := Except.ok.inj (hload.symm.trans hs)
    obtain rfl := Option.some.inj (hp.symm.trans hp')
    exact hrows
  · exact fun hrows => ⟨_, p, hload, hp, hrows⟩

/-- A header without an end is an error for the C++ loader, or no line at all for the other. -/
lemma not_sameRows_header {f : CsvFile R} (hend : f.headerEnd = []) (path : String) (nt : ℕ)
    (sched : Schedule) : ¬ SameRows R path f.text nt sched := by
  have htext : f.text = f.header := by
    simp [CsvFile.text, hend, f.alone hend, body]
  have hnot : newline ∉ encode f.header := by
    have hheader := newline_not_mem f.oneLine.noNewline .lf
    rwa [List.dropLast_singleton, List.append_nil] at hheader
  rw [htext]
  rintro ⟨s, p, hs, hp, -⟩
  by_cases hnil : f.header = []
  · rw [hnil] at hp
    cases hp
  · have hne : encode f.header ≠ [] := fun h => hnil (encode_eq_nil.mp h)
    rw [SequentialLoad.loadPartitionCsv_noNewline R.fromChars path hne hnot nt sched] at hs
    cases hs

lemma not_sameRows {f : CsvFile R} (he : LineEnd f.headerEnd) (hfinal : f.final = false)
    (hne : f.lines ≠ []) (path : String) {nt : ℕ} (hnt : 1 ≤ nt) (sched : Schedule) :
    ¬ SameRows R path f.text nt sched := by
  intro hsame
  have hlt := length_loaded hfinal hne hnt sched
  have hrows := (sameRows_loaded he path nt sched).mp hsame
  rw [hrows, List.length_map] at hlt
  exact Nat.lt_irrefl _ hlt

/-- **When the two loaders read the same data**: exactly if the header and the last data line of
the file are ended, and no flag begins with `1`. -/
theorem sameRows_iff (R : Readers) (f : CsvFile R) (path : String) (nt : ℕ) (hnt : 1 ≤ nt)
    (sched : Schedule) : SameRows R path f.text nt sched ↔
      f.headerEnd ≠ [] ∧ (f.final = true ∨ f.lines = []) ∧
        ∀ l ∈ f.lines, (l.cell .storeAndFwdFlag).head? ≠ some '1' := by
  rcases f.ended with he | hnone
  · have hheader : f.headerEnd ≠ [] := by
      intro h
      rw [h] at he
      cases he
    by_cases hend : f.final = true ∨ f.lines = []
    · rw [sameRows_loaded he, rows_loaded hend hnt, List.map_inj_left]
      simp only [cppRow_eq_iff]
      exact ⟨fun h => ⟨hheader, hend, h⟩, fun h => h.2.2⟩
    · obtain ⟨hfinal, hne⟩ := not_or.mp hend
      have hnot := not_sameRows he (Bool.eq_false_iff.mpr hfinal) hne path hnt sched
      exact iff_of_false hnot fun h => hend h.2.1
  · exact iff_of_false (not_sameRows_header hnone path nt sched) fun h => h.1 hnone

/-! ### A trip -/

def exactReaders : Readers where
  fromChars bytes := some (decimal (bytes.map fun b => Char.ofNat b.toNat), [])
  float s := some (decimal s)
  nearest := some
  fromChars_plain s h := by
    have hchar : ∀ c ∈ s, Char.ofNat (byte c).toNat = id c := fun c hc => by
      rw [toNat_byte (h.numeric.chars c hc).ascii, Char.ofNat_toNat]
      rfl
    have hchars : (encode s).map (fun b => Char.ofNat b.toNat) = s := by
      rw [h.numeric.encode_eq, List.map_map]
      exact (List.map_congr_left hchar).trans (List.map_id s)
    rw [hchars]
    rfl
  float_plain s v _ h := h

def tripCell : Column → List Char
  | .storeAndFwdFlag => ['N']
  | .tripDistance => ['2', '.', '5']
  | _ => ['1']

lemma digits_cons (hd : d.isDigit = true) (h : ∀ d ∈ digits, d.isDigit = true) :
    Digits (d :: digits) :=
  ⟨List.cons_ne_nil _ _, fun d' hd' => (List.mem_cons.mp hd').elim (fun heq => heq ▸ hd) (h d')⟩

lemma digits_singleton (h : d.isDigit = true) : Digits [d] := digits_cons h (by simp)

lemma noNewline_singleton (h : PyCsv.isNewline c = false) : NoNewline [c] :=
  fun c' hc => by rw [List.mem_singleton.mp hc, h]

lemma canonical_one : CanonicalInt 32 ['1'] ∧ CanonicalInt 64 ['1'] := by
  have hdigits : Digits (unsigned ['1']) := digits_singleton rfl
  exact ⟨⟨hdigits, by decide, by decide⟩, ⟨hdigits, by decide, by decide⟩⟩

def trip : DataLine exactReaders where
  cell := tripCell
  canonical c := by
    have hone : PlainDecimal ['1'] := .inl (digits_singleton rfl)
    have hdistance : PlainDecimal ['2', '.', '5'] :=
      .inr ⟨['2'], ['5'], digits_cons rfl (digits_singleton rfl).2, rfl⟩
    have hflag : Unquoted ['N'] := {
      noNewline := noNewline_singleton rfl
      noComma := by simp
      noQuote := by simp
      ne_nil := List.cons_ne_nil _ _ }
    cases c with
    | storeAndFwdFlag => exact hflag
    | tripDistance => exact ⟨hdistance, rfl⟩
    | pickupDatetime => exact canonical_one.2
    | dropoffDatetime => exact canonical_one.2
    | _ => first | exact canonical_one.1 | exact ⟨hone, rfl⟩
  lineEnd := ['\n']
  ended := .lf

/-- A file with one trip, and with a header that only has to be there. -/
def tripFile (final : Bool) : CsvFile exactReaders where
  header := ['h']
  oneLine := ⟨noNewline_singleton rfl, fun r hr => by
    obtain rfl := Option.some.inj hr
    exact nofun⟩
  headerEnd := ['\n']
  ended := .inl .lf
  lines := [trip]
  alone := nofun
  final := final

/-- Two threads load the trip, since its line is ended. -/
theorem sameRows_iff_trip : SameRows exactReaders "taxi.csv" (tripFile true).text 2
    ⟨id, fun _ => .refl _⟩ := by
  refine (sameRows_iff exactReaders (tripFile true) "taxi.csv" 2 (by decide) _).mpr
    ⟨List.cons_ne_nil _ _, .inl rfl, ?_⟩
  intro l hl
  obtain rfl := List.mem_singleton.mp hl
  decide

/-- One thread loses the trip if its line is not ended. -/
theorem not_sameRows_trip : ¬ ∀ (R : Readers) (f : CsvFile R) (path : String) (nt : ℕ), 1 ≤ nt →
    ∀ sched : Schedule, SameRows R path f.text nt sched := by
  intro h
  have hsame := h exactReaders (tripFile false) "taxi.csv" 1 (by decide) ⟨id, fun _ => .refl _⟩
  exact not_sameRows .lf rfl (by simp [tripFile]) "taxi.csv" (by decide) _ hsame

end Mini2.Loaders
