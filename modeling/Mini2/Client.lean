import Mini2.Dates
import Mini2.Proto
import Mathlib.Data.List.ModifyLast

/-!
The client program: the conditions and switches of its command line, and what it counts and does
from one chunk of its query to the next.
-/

namespace Mini2.Client

open Mini2.Proto Mini2.Machine Mini2.Scanf Mini2.Dates

/-! ### The command line -/

structure CliArgs where
  overlayPath : String := ""
  gatewayName : String := "A"
  predicates : List RangePredicate := []
  concurrency : ℤ := 1
  maxRowsHint : ℤ := 0
  cancelAfter : Bool := false
  cancelAfterChunks : ℤ := 2
  quiet : Bool := false
  limitChunks : ℤ := -1
  json : Bool := false
  printRows : ℤ := 0

/-- How the program ends before it has sent anything. -/
inductive Quit
  | exit (code : ℕ)
  | throws (what : String)
  | overflows
  deriving DecidableEq

/-- A condition on a column, of which nothing has been said yet. -/
def unbounded (column : String) : RangePredicate := ⟨column, 0, 10 ^ 9, true⟩

/-- The last condition is changed; a bound without a column has one of its own. -/
def CliArgs.bound (a : CliArgs) (column : String) (f : RangePredicate → RangePredicate) : CliArgs :=
  { a with predicates :=
      (if a.predicates = [] then [unbounded column] else a.predicates).modifyLast f }

/-- `std::stoi` -/
def stoi (v : String) : Except Quit ℤ :=
  match (scanInt v.toList).bind fun p => checked 32 p.1 with
  | some n => .ok n
  | none => .error (.throws "stoi")

/-- What the machine makes of numbers: `std::stod`, and the cast of an integer to a double. -/
structure Doubles where
  stod : List Char → Option ℚ
  ofInt : ℤ → ℚ

variable (D : Doubles)

def stodArg (v : String) : Except Quit ℚ :=
  match D.stod v.toList with
  | some x => .ok x
  | none => .error (.throws "stod")

def timeArg (v : String) : Except Quit ℚ :=
  match parseIsoDt v.toList with
  | some t => .ok (D.ofInt t)
  | none => .error .overflows

def option (s : String) : Option (String → CliArgs → Except Quit CliArgs) :=
  if s = "--overlay" then some fun v a => .ok { a with overlayPath := v }
  else if s = "--gateway" then some fun v a => .ok { a with gatewayName := v }
  else if s = "--column" then some fun v a =>
    .ok { a with predicates := a.predicates ++ [unbounded v] }
  else if s = "--low" then some fun v a =>
    (stodArg D v).map fun x => a.bound "trip_distance" fun p => { p with low := x }
  else if s = "--high" then some fun v a =>
    (stodArg D v).map fun x => a.bound "trip_distance" fun p => { p with high := x }
  else if s = "--low-dt" then some fun v a =>
    (timeArg D v).map fun x => a.bound "pickup_datetime" fun p => { p with low := x }
  else if s = "--high-dt" then some fun v a =>
    (timeArg D v).map fun x => a.bound "pickup_datetime" fun p => { p with high := x }
  else if s = "--print" then some fun v a => (stoi v).map fun n => { a with printRows := n }
  else if s = "--concurrency" then some fun v a => (stoi v).map fun n => { a with concurrency := n }
  else if s = "--max-rows" then some fun v a => (stoi v).map fun n => { a with maxRowsHint := n }
  else if s = "--cancel-after" then some fun v a =>
    (stoi v).map fun n => { a with cancelAfter := true, cancelAfterChunks := n }
  else if s = "--limit-chunks" then some fun v a =>
    (stoi v).map fun n => { a with limitChunks := n }
  else none

def switch (s : String) : Option (CliArgs → CliArgs) :=
  if s = "--exclusive" then some fun a =>
    { a with predicates := a.predicates.modifyLast fun p => { p with inclusive := false } }
  else if s = "--quiet" ∨ s = "-q" then some fun a => { a with quiet := true }
  else if s = "--json" then some fun a => { a with json := true }
  else none

/-- The loop of `parse`; each character of an argument stands for a byte. -/
def parseLoop : List String → CliArgs → Except Quit CliArgs
  | [], a => .ok a
  | s :: argv, a =>
    match option D s with
    | some set =>
      match argv with
      | [] => .error (.throws ("need value for " ++ s))
      | v :: argv => (set v a).bind (parseLoop argv)
    | none =>
      match switch s with
      | some set => parseLoop argv (set a)
      | none => .error (.exit (if s = "--help" ∨ s = "-h" then 0 else 2))

def parse (argv : List String) : Except Quit CliArgs :=
  (parseLoop D argv {}).map fun a =>
    if a.predicates = [] then { a with predicates := [unbounded "trip_distance"] } else a

/-- The query of `run_one`. -/
def CliArgs.query (a : CliArgs) : Query := ⟨a.predicates⟩

/-! ### Conditions as arguments -/

/-- A bound, as a number or as a time. -/
inductive Limit
  | number (text : String)
  | time (t : ℤ)

structure Condition where
  column : String
  low : Limit
  high : Limit
  inclusive : Bool

def Limit.args (width : ℕ) (name : String) : Limit → List String
  | .number text => [name, text]
  | .time t => [name ++ "-dt", String.ofList (fmtDt width t)]

def Condition.args (width : ℕ) (d : Condition) : List String :=
  ["--column", d.column] ++ d.low.args width "--low" ++ d.high.args width "--high" ++
    if d.inclusive then [] else ["--exclusive"]

def Limit.Readable : Limit → Prop
  | .number text => D.stod text.toList ≠ none
  | .time t => InYears t

def Limit.value : Limit → ℚ
  | .number text => (D.stod text.toList).getD 0
  | .time t => D.ofInt t

def Condition.predicate (d : Condition) : RangePredicate :=
  ⟨d.column, d.low.value D, d.high.value D, d.inclusive⟩

variable {D} {a : CliArgs} {ps : List RangePredicate} {p : RangePredicate}

lemma bound_last (h : a.predicates = ps ++ [p]) (column : String)
    (f : RangePredicate → RangePredicate) :
    a.bound column f = { a with predicates := ps ++ [f p] } := by
  rw [CliArgs.bound, h, if_neg (by simp), List.modifyLast_concat]

lemma parseLoop_option {s v : String} {argv : List String} {b : CliArgs}
    {set : String → CliArgs → Except Quit CliArgs} (hs : option D s = some set)
    (hv : set v a = .ok b) : parseLoop D (s :: v :: argv) a = parseLoop D argv b := by
  rw [parseLoop, hs]
  dsimp only
  rw [hv]
  rfl

lemma stodArg_value {text : String} (h : (Limit.number text).Readable D) :
    stodArg D text = .ok ((Limit.number text).value D) := by
  obtain ⟨x, hx⟩ := Option.ne_none_iff_exists'.mp h
  rw [stodArg, Limit.value, hx]
  rfl

lemma timeArg_value (width : ℕ) {t : ℤ} (h : (Limit.time t).Readable D) :
    timeArg D (String.ofList (fmtDt width t)) = .ok ((Limit.time t).value D) := by
  rw [timeArg, String.toList_ofList, parseIsoDt_of_inYears width h]
  rfl

lemma parseLoop_low (width : ℕ) {l : Limit} (hl : l.Readable D) (h : a.predicates = ps ++ [p])
    (argv : List String) : parseLoop D (l.args width "--low" ++ argv) a =
      parseLoop D argv { a with predicates := ps ++ [{ p with low := l.value D }] } := by
  cases l with
  | number text =>
    refine parseLoop_option rfl ?_
    rw [stodArg_value hl]
    exact congrArg Except.ok (bound_last h "trip_distance" _)
  | time t =>
    refine parseLoop_option rfl ?_
    rw [timeArg_value width hl]
    exact congrArg Except.ok (bound_last h "pickup_datetime" _)

lemma parseLoop_high (width : ℕ) {l : Limit} (hl : l.Readable D) (h : a.predicates = ps ++ [p])
    (argv : List String) : parseLoop D (l.args width "--high" ++ argv) a =
      parseLoop D argv { a with predicates := ps ++ [{ p with high := l.value D }] } := by
  cases l with
  | number text =>
    refine parseLoop_option rfl ?_
    rw [stodArg_value hl]
    exact congrArg Except.ok (bound_last h "trip_distance" _)
  | time t =>
    refine parseLoop_option rfl ?_
    rw [timeArg_value width hl]
    exact congrArg Except.ok (bound_last h "pickup_datetime" _)

lemma parseLoop_exclusive (h : a.predicates = ps ++ [p]) (argv : List String) :
    parseLoop D ("--exclusive" :: argv) a =
      parseLoop D argv { a with predicates := ps ++ [{ p with inclusive := false }] } := by
  have hlast : a.predicates.modifyLast (fun p => { p with inclusive := false }) =
      ps ++ [{ p with inclusive := false }] := by
    rw [h, List.modifyLast_concat]
  rw [← hlast]
  rfl

lemma parseLoop_condition (width : ℕ) {d : Condition} (hlow : d.low.Readable D)
    (hhigh : d.high.Readable D) (argv : List String) :
    parseLoop D (d.args width ++ argv) a =
      parseLoop D argv { a with predicates := a.predicates ++ [d.predicate D] } := by
  rw [Condition.args, List.append_assoc, List.append_assoc, List.append_assoc, List.cons_append,
    List.cons_append, List.nil_append, parseLoop_option rfl rfl, parseLoop_low width hlow rfl,
    parseLoop_high width hhigh rfl]
  obtain ⟨column, low, high, inclusive⟩ := d
  cases inclusive with
  | true => rfl
  | false =>
    have hlast : ({ a with predicates := a.predicates ++
        [⟨column, low.value D, high.value D, true⟩] } : CliArgs).predicates =
          a.predicates ++ [⟨column, low.value D, high.value D, true⟩] := rfl
    exact parseLoop_exclusive hlast argv

lemma parseLoop_conditions (width : ℕ) (ds : List Condition) (a : CliArgs) (argv : List String)
    (h : ∀ d ∈ ds, d.low.Readable D ∧ d.high.Readable D) :
    parseLoop D ((ds.flatMap fun d => d.args width) ++ argv) a = parseLoop D argv
      { a with predicates := a.predicates ++ ds.map fun d => d.predicate D } := by
  induction ds generalizing a with
  | nil => simp
  | cons d ds ih =>
    obtain ⟨hlow, hhigh⟩ := h d List.mem_cons_self
    rw [List.flatMap_cons, List.append_assoc, parseLoop_condition width hlow hhigh,
      ih _ fun d hd => h d (List.mem_cons_of_mem _ hd), List.map_cons, List.append_assoc]
    rfl

lemma stoi_toString {n : ℕ} (hn : n < 2 ^ 31) : stoi (toString n) = .ok n := by
  have hscan := scanInt_padded 0 n stops_nil
  have htext : padded 0 n ++ [] = (toString n).toList := by
    simp [padded]
  rw [htext] at hscan
  have hfits : Fits 32 (n : ℤ) := by
    unfold Fits
    omega
  have hvalue : ((scanInt (toString n).toList).bind fun p => checked 32 p.1) = some (n : ℤ) := by
    rw [hscan, Option.bind_some, checked_of_fits hfits]
  simp only [stoi, hvalue]

/-- **Any conditions can be asked for**: the client that is given them as arguments asks for the
rows that meet all of them, as often as it is told to. -/
theorem parse_conditions (width : ℕ) {ds : List Condition} (hne : ds ≠ [])
    (h : ∀ d ∈ ds, d.low.Readable D ∧ d.high.Readable D) {n : ℕ} (hn : n < 2 ^ 31) :
    parse D ((ds.flatMap fun d => d.args width) ++ ["--concurrency", toString n]) =
      .ok { predicates := ds.map fun d => d.predicate D, concurrency := n } := by
  have hloop : ∀ a : CliArgs, parseLoop D ["--concurrency", toString n] a =
      .ok { a with concurrency := n } := by
    intro a
    refine (parseLoop_option rfl ?_).trans rfl
    rw [stoi_toString hn]
    rfl
  rw [parse, parseLoop_conditions width ds _ _ h, hloop]
  exact congrArg Except.ok (if_neg (by simpa using hne))

/-! ### From chunk to chunk -/

/-- What the client looks at in a chunk. -/
structure Chunk (Row : Type) where
  rows : List Row
  isLast : Bool
  ownersHit : ℕ
  ownersEligible : ℕ

structure ReqResult where
  rows : ℕ := 0
  chunks : ℕ := 0
  bytes : ℕ := 0
  bytesMin : ℕ := 0
  bytesMax : ℕ := 0
  ownersHit : ℕ := 0
  ownersEligible : ℕ := 0
  ok : Bool := false
  err : String := ""

variable {Row : Type}

def ReqResult.count (size : Chunk Row → ℕ) (r : ReqResult) (ch : Chunk Row) : ReqResult :=
  { r with
    chunks := r.chunks + 1
    rows := r.rows + ch.rows.length
    bytes := r.bytes + size ch
    bytesMin :=
      if ch.rows ≠ [] ∧ (r.bytesMin = 0 ∨ size ch < r.bytesMin) then size ch else r.bytesMin
    bytesMax := if ch.rows ≠ [] ∧ r.bytesMax < size ch then size ch else r.bytesMax }

/-- The rows of a chunk that are printed once it has been counted. -/
def CliArgs.toPrint (a : CliArgs) (r : ReqResult) (ch : Chunk Row) : List Row :=
  if 0 < a.printRows then
    let already := ((r.rows : ℤ) - ch.rows.length).bmod (2 ^ 32)
    let budget := max 0 (a.printRows - already)
    ch.rows.take (min budget ch.rows.length).toNat
  else []

/-- What the client does when a chunk has been counted. -/
inductive Next
  | cancel
  | abandon
  | finish
  | fetch
  deriving DecidableEq

def CliArgs.next (a : CliArgs) (r : ReqResult) (isLast : Bool) : Next :=
  if a.cancelAfter = true ∧ a.cancelAfterChunks ≤ r.chunks then .cancel
  else if 0 ≤ a.limitChunks ∧ a.limitChunks ≤ r.chunks then .abandon
  else if isLast then .finish
  else .fetch

/-- The last line of the summary: how many requests have ended well and ill, and the rows of all
of them. -/
def summary (results : List ReqResult) : ℕ × ℕ × ℕ :=
  (results.countP fun r => r.ok, results.countP fun r => !r.ok,
    (results.map fun r => r.rows).sum)

def exitCode (results : List ReqResult) : ℕ := if (summary results).2.1 = 0 then 0 else 1

end Mini2.Client
