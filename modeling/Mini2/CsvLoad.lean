import Mathlib.Algebra.Ring.Nat
import Mini2.Lib.Lines
import Mini2.Store

/-!
The loader of a partition: two passes over line-aligned slices of the file, one slice a thread.
The first counts the lines of each slice, the second parses them straight into the columns,
each thread from the offset its predecessors leave it.

Pointers into the file are offsets into its data, and sizes are unbounded. How a text is read
as a double is a parameter: `fromCharsDouble` gives the value and what is left of the text, if
the text begins with a number that can be represented.
-/

namespace Mini2.CsvLoad

open Mini2.Proto Mini2.Store Mini2.Lines

def newline : UInt8 := 10
def carriageReturn : UInt8 := 13
def comma : UInt8 := 44
def minus : UInt8 := 45

/-- The bytes from offset `pos` to offset `stop`. -/
def slice (data : List UInt8) (pos stop : ℕ) : List UInt8 := (data.take stop).drop pos

/-- The first occurrence of a byte from `pos` on, before `stop`. -/
def memchr (data : List UInt8) (b : UInt8) (pos stop : ℕ) : Option ℕ :=
  ((slice data pos stop).findIdx? (· == b)).map (pos + ·)

lemma memchr_ge {data : List UInt8} {b : UInt8} {pos stop found : ℕ}
    (h : memchr data b pos stop = some found) : pos ≤ found := by
  obtain ⟨i, -, rfl⟩ := Option.map_eq_some_iff.mp h
  exact Nat.le_add_right pos i

/-! ### One row -/

/-- The field in front of the next comma, and what follows it. -/
def nextField (p : List UInt8) : List UInt8 × List UInt8 :=
  match p.findIdx? (· == comma) with
  | some i => (p.take i, p.drop (i + 1))
  | none => (p, [])

/-- The first `n` fields; those beyond the end are empty. -/
def takeFields : ℕ → List UInt8 → List (List UInt8)
  | 0, _ => []
  | n + 1, p => (nextField p).1 :: takeFields n (nextField p).2

def isDigit (b : UInt8) : Bool := 48 ≤ b && b ≤ 57

/-- `from_chars` for an integer of `bits` bits, to base 10. -/
def fromChars (bits : ℕ) (sv : List UInt8) : Option (ℤ × List UInt8) :=
  let negative := sv.head? == some minus
  let rest := if negative then sv.tail else sv
  let digits := rest.takeWhile isDigit
  if digits = [] then none
  else
    let n := digits.foldl (fun (n : ℕ) d => 10 * n + (d.toNat - 48)) 0
    let v : ℤ := if negative then -n else n
    if -2 ^ (bits - 1) ≤ v ∧ v < 2 ^ (bits - 1) then some (v, rest.dropWhile isDigit) else none

section Doubles

variable (fromCharsDouble : List UInt8 → Option (ℚ × List UInt8))

/-- A cell of a column that has been resized: what a field leaves in it, and whether the whole
field has been read. -/
def parseCell {A : Type} [Zero A] (read : List UInt8 → Option (A × List UInt8))
    (sv : List UInt8) : A × Bool :=
  if sv = [] then (0, true)
  else
    match read sv with
    | some (v, rest) => (v, rest.isEmpty)
    | none => (0, false)

def parseI32 (sv : List UInt8) : ℤ × Bool := parseCell (fromChars 32) sv

def parseI64 (sv : List UInt8) : ℤ × Bool := parseCell (fromChars 64) sv

def parseF64 (sv : List UInt8) : ℚ × Bool := parseCell fromCharsDouble sv

/-- What a line puts into the cells of its row, the validity last. -/
def parseRow (line : List UInt8) : TaxiRow × Bool :=
  let row := if line.getLast? = some carriageReturn then line.dropLast else line
  let fields := takeFields 17 row
  let fld i := fields.getD i []
  let vendorId := parseI32 (fld 0)
  let pickupDatetime := parseI64 (fld 1)
  let dropoffDatetime := parseI64 (fld 2)
  let passengerCount := parseI32 (fld 3)
  let tripDistance := parseF64 fromCharsDouble (fld 4)
  let ratecodeId := parseI32 (fld 5)
  let fwd := fld 6
  let puLocationId := parseI32 (fld 7)
  let doLocationId := parseI32 (fld 8)
  let paymentType := parseI32 (fld 9)
  let fareAmount := parseF64 fromCharsDouble (fld 10)
  let extra := parseF64 fromCharsDouble (fld 11)
  let mtaTax := parseF64 fromCharsDouble (fld 12)
  let tipAmount := parseF64 fromCharsDouble (fld 13)
  let tollsAmount := parseF64 fromCharsDouble (fld 14)
  let improvementSurcharge := parseF64 fromCharsDouble (fld 15)
  let totalAmount := parseF64 fromCharsDouble (fld 16)
  ({ vendorId := vendorId.1
     pickupDatetime := pickupDatetime.1
     dropoffDatetime := dropoffDatetime.1
     passengerCount := passengerCount.1
     tripDistance := tripDistance.1
     ratecodeId := ratecodeId.1
     puLocationId := puLocationId.1
     doLocationId := doLocationId.1
     storeAndFwdFlag := fwd.head? = some 89 || fwd.head? = some 121
     paymentType := paymentType.1
     fareAmount := fareAmount.1
     extra := extra.1
     mtaTax := mtaTax.1
     tipAmount := tipAmount.1
     tollsAmount := tollsAmount.1
     improvementSurcharge := improvementSurcharge.1
     totalAmount := totalAmount.1 },
   vendorId.2 && pickupDatetime.2 && dropoffDatetime.2 && passengerCount.2 && tripDistance.2 &&
     ratecodeId.2 && puLocationId.2 && doLocationId.2 && paymentType.2 && fareAmount.2 &&
     extra.2 && mtaTax.2 && tipAmount.2 && tollsAmount.2 && improvementSurcharge.2 &&
     totalAmount.2)

/-! ### The two passes -/

/-- Where the slice of thread `i` of `nt` begins: at the beginning of a line. -/
def chunkStart (data : List UInt8) (nt i : ℕ) : ℕ :=
  if i = 0 then 0
  else if i < nt then
    let raw := data.length * i / nt
    if data.length ≤ raw then data.length
    else
      match memchr data newline raw data.length with
      | some nl => nl + 1
      | none => data.length
  else data.length

/-- Pass 1: the newlines of a slice. -/
def countNewlines (data : List UInt8) (p stop : ℕ) : ℕ :=
  if p < stop then
    match h : memchr data newline p stop with
    | none => 0
    | some found => countNewlines data (found + 1) stop + 1
  else 0
termination_by stop - p
decreasing_by
  have := memchr_ge h
  omega

def counts (data : List UInt8) (nt : ℕ) : List ℕ :=
  (List.range nt).map fun tid =>
    countNewlines data (chunkStart data nt tid) (chunkStart data nt (tid + 1))

def offset (data : List UInt8) (nt i : ℕ) : ℕ := ((counts data nt).take i).sum

/-- A write of pass 2: an index, and what its cells get. -/
abbrev Write := ℕ × TaxiRow × Bool

/-- Pass 2: the writes of a thread that is at `pos` in its slice and at index `idx`. -/
def parseChunk (data : List UInt8) (cend cap pos idx : ℕ) : List Write :=
  if pos < cend ∧ idx < cap then
    match h : memchr data newline pos cend with
    | some nl =>
      if nl = pos then parseChunk data cend cap (nl + 1) idx
      else (idx, parseRow fromCharsDouble (slice data pos nl)) ::
        parseChunk data cend cap (nl + 1) (idx + 1)
    | none => [(idx, parseRow fromCharsDouble (slice data pos cend))]
  else []
termination_by cend - pos
decreasing_by
  all_goals
    have := memchr_ge h
    omega

def threadWrites (data : List UInt8) (nt tid : ℕ) : List Write :=
  parseChunk fromCharsDouble data (chunkStart data nt (tid + 1)) (offset data nt (tid + 1))
    (chunkStart data nt tid) (offset data nt tid)

def writes (data : List UInt8) (nt : ℕ) : List Write :=
  (List.range nt).flatMap (threadWrites fromCharsDouble data nt)

end Doubles

end Mini2.CsvLoad

namespace Mini2.Store.PartitionStore

open Mini2.Proto

def resize (n : ℕ) : PartitionStore where
  vendorId := List.replicate n 0
  pickupDatetime := List.replicate n 0
  dropoffDatetime := List.replicate n 0
  passengerCount := List.replicate n 0
  tripDistance := List.replicate n 0
  ratecodeId := List.replicate n 0
  puLocationId := List.replicate n 0
  doLocationId := List.replicate n 0
  storeAndFwdFlag := List.replicate n false
  paymentType := List.replicate n 0
  fareAmount := List.replicate n 0
  extra := List.replicate n 0
  mtaTax := List.replicate n 0
  tipAmount := List.replicate n 0
  tollsAmount := List.replicate n 0
  improvementSurcharge := List.replicate n 0
  totalAmount := List.replicate n 0
  valid := List.replicate n false
  columnRanges := []

def write (s : PartitionStore) (i : ℕ) (r : TaxiRow) (ok : Bool) : PartitionStore where
  vendorId := s.vendorId.set i r.vendorId
  pickupDatetime := s.pickupDatetime.set i r.pickupDatetime
  dropoffDatetime := s.dropoffDatetime.set i r.dropoffDatetime
  passengerCount := s.passengerCount.set i r.passengerCount
  tripDistance := s.tripDistance.set i r.tripDistance
  ratecodeId := s.ratecodeId.set i r.ratecodeId
  puLocationId := s.puLocationId.set i r.puLocationId
  doLocationId := s.doLocationId.set i r.doLocationId
  storeAndFwdFlag := s.storeAndFwdFlag.set i r.storeAndFwdFlag
  paymentType := s.paymentType.set i r.paymentType
  fareAmount := s.fareAmount.set i r.fareAmount
  extra := s.extra.set i r.extra
  mtaTax := s.mtaTax.set i r.mtaTax
  tipAmount := s.tipAmount.set i r.tipAmount
  tollsAmount := s.tollsAmount.set i r.tollsAmount
  improvementSurcharge := s.improvementSurcharge.set i r.improvementSurcharge
  totalAmount := s.totalAmount.set i r.totalAmount
  valid := s.valid.set i ok
  columnRanges := s.columnRanges

end Mini2.Store.PartitionStore

namespace Mini2.CsvLoad

open Mini2.Proto Mini2.Store Mini2.Lines

/-- The order in which the writes of the threads happen. -/
structure Schedule where
  order : List Write → List Write
  perm : ∀ ws, (order ws).Perm ws

variable (fromCharsDouble : List UInt8 → Option (ℚ × List UInt8))

def store (size : ℕ) (ws : List Write) : PartitionStore :=
  ws.foldl (fun s w => s.write w.1 w.2.1 w.2.2) (.resize size)

/-- `file` is the content of the file at `path`, if it can be opened. -/
def loadPartitionCsv (path : String) (file : Option (List UInt8)) (nt : ℕ) (sched : Schedule) :
    Except String PartitionStore :=
  match file with
  | none => .error ("cannot open CSV: " ++ path)
  | some [] => .ok (.resize 0)
  | some file =>
    match memchr file newline 0 file.length with
    | none => .error ("CSV has no header newline: " ++ path)
    | some headerEnd =>
      let data := file.drop (headerEnd + 1)
      .ok (store (offset data nt nt) (sched.order (writes fromCharsDouble data nt)))

/-- The rows of the lines that can be parsed, one line after the other. -/
def sequentialRows (data : List UInt8) : List TaxiRow :=
  (((lines newline data).filter (· ≠ [])).map (parseRow fromCharsDouble)).filterMap fun c =>
    if c.2 then some c.1 else none

end Mini2.CsvLoad
