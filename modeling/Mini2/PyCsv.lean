import Mathlib.Data.List.Basic

/-!
The reader of Python's `csv` module, in its default dialect, on the lines of a file that is
opened without translation of newlines. The limit on the length of a field is left out.
-/

namespace Mini2.PyCsv

/-! ### The reader -/

/-- The states of the reader that the default dialect comes to. -/
inductive ParserState
  | startRecord | startField | inField | inQuotedField | quoteInQuotedField | eatCrnl
  deriving DecidableEq

structure Parser where
  state : ParserState
  field : List Char
  fields : List (List Char)

namespace Parser

def start : Parser := ⟨.startRecord, [], []⟩

def saveField (r : Parser) (state : ParserState) : Parser := ⟨state, [], r.fields ++ [r.field]⟩

def addChar (r : Parser) (c : Char) (state : ParserState) : Parser :=
  ⟨state, r.field ++ [c], r.fields⟩

end Parser

def isNewline (c : Char) : Bool := c == '\n' || c == '\r'

def startField (r : Parser) (c : Char) : Parser :=
  if isNewline c then r.saveField .eatCrnl
  else if c = '"' then { r with state := .inQuotedField }
  else if c = ',' then r.saveField .startField
  else r.addChar c .inField

/-- A character of a line; after a line end that is not the end of the line there is an error. -/
def processChar (r : Parser) (c : Char) : Option Parser :=
  match r.state with
  | .startRecord =>
    if isNewline c then some { r with state := .eatCrnl } else some (startField r c)
  | .startField => some (startField r c)
  | .inField =>
    if isNewline c then some (r.saveField .eatCrnl)
    else if c = ',' then some (r.saveField .startField)
    else some (r.addChar c .inField)
  | .inQuotedField =>
    if c = '"' then some { r with state := .quoteInQuotedField }
    else some (r.addChar c .inQuotedField)
  | .quoteInQuotedField =>
    if c = '"' then some (r.addChar c .inQuotedField)
    else if c = ',' then some (r.saveField .startField)
    else if isNewline c then some (r.saveField .eatCrnl)
    else some (r.addChar c .inField)
  | .eatCrnl => if isNewline c then some r else none

def processEol (r : Parser) : Parser :=
  match r.state with
  | .startRecord => r
  | .inQuotedField => r
  | .eatCrnl => { r with state := .startRecord }
  | _ => r.saveField .startRecord

def processLine (r : Parser) (line : List Char) : Option Parser :=
  (line.foldlM processChar r).map processEol

/-- The records of the lines to come. A quoted field may go on in the next line, and what is
begun when the lines end is a record too. -/
def readRecords (r : Parser) : List (List Char) → Option (List (List (List Char)))
  | [] =>
    if r.field ≠ [] ∨ r.state = .inQuotedField then some [(r.saveField .startRecord).fields]
    else some []
  | line :: lines =>
    match processLine r line with
    | none => none
    | some r' =>
      if r'.state = .startRecord then (readRecords .start lines).map (r'.fields :: ·)
      else readRecords r' lines

def fileLines : List Char → List (List Char)
  | [] => []
  | '\r' :: '\n' :: text => ['\r', '\n'] :: fileLines text
  | c :: text =>
    if isNewline c then [c] :: fileLines text
    else
      match fileLines text with
      | [] => [[c]]
      | line :: lines => (c :: line) :: lines

/-- `csv.reader(f)`. -/
def reader (text : List Char) : Option (List (List (List Char))) :=
  readRecords .start (fileLines text)

/-! ### Lines and their ends -/

inductive LineEnd : List Char → Prop
  | lf : LineEnd ['\n']
  | crlf : LineEnd ['\r', '\n']

variable {line lineEnd text field : List Char} {r : Parser} {c : Char}

def NoNewline (line : List Char) : Prop := ∀ c ∈ line, isNewline c = false

lemma NoNewline.tail (h : NoNewline (c :: line)) : NoNewline line :=
  fun c' hc => h c' (List.mem_cons_of_mem _ hc)

lemma fileLines_cons (hc : isNewline c = false) :
    fileLines (c :: text) = match fileLines text with
      | [] => [[c]]
      | line :: lines => (c :: line) :: lines := by
  rw [fileLines]
  · rw [if_neg (by simp [hc])]
  · rintro text' rfl -
    exact absurd hc (by decide)

lemma fileLines_append (h : NoNewline line) (he : LineEnd lineEnd) :
    fileLines (line ++ (lineEnd ++ text)) = (line ++ lineEnd) :: fileLines text := by
  induction line with
  | nil =>
    cases he with
    | lf =>
      show fileLines ('\n' :: text) = _
      rw [fileLines]
      · rfl
      · rintro text' h -
        exact absurd h (by decide)
    | crlf => rfl
  | cons c line ih =>
    rw [List.cons_append, fileLines_cons (h c List.mem_cons_self), ih h.tail]
    rfl

lemma fileLines_last (h : NoNewline line) (hne : line ≠ []) : fileLines line = [line] := by
  induction line with
  | nil => exact absurd rfl hne
  | cons c line ih =>
    rw [fileLines_cons (h c List.mem_cons_self)]
    cases line with
    | nil => rfl
    | cons c' line => rw [ih h.tail (by simp)]

/-! ### Records of unquoted fields -/

structure Unquoted (field : List Char) : Prop where
  noNewline : NoNewline field
  noComma : ',' ∉ field
  noQuote : field.head? ≠ some '"'
  ne_nil : field ≠ []

def record (fields : List (List Char)) : List Char := [','].intercalate fields

lemma record_cons (field : List Char) (fields : List (List Char)) (hne : fields ≠ []) :
    record (field :: fields) = field ++ ',' :: record fields := by
  cases fields with
  | nil => exact absurd rfl hne
  | cons field' fields => simp [record, List.intercalate]

lemma processLine_ended {e : List Char} (he : e = [] ∨ LineEnd e) (r : Parser)
    (hr : r.state = .inField) :
    processLine r e = some ⟨.startRecord, [], r.fields ++ [r.field]⟩ := by
  obtain ⟨state, field, fields⟩ := r
  obtain rfl : state = .inField := hr
  rcases he with rfl | he
  · rfl
  · cases he <;> rfl

lemma foldlM_inField (hn : NoNewline field) (hc : ',' ∉ field) (begun : List Char)
    (fields : List (List Char)) :
    field.foldlM processChar ⟨.inField, begun, fields⟩ =
      some ⟨.inField, begun ++ field, fields⟩ := by
  induction field generalizing begun with
  | nil => simp
  | cons c field ih =>
    have hne : c ≠ ',' := fun h => hc (h ▸ List.mem_cons_self)
    have hstep : processChar ⟨.inField, begun, fields⟩ c =
        some ⟨.inField, begun ++ [c], fields⟩ := by
      simp [processChar, hn c List.mem_cons_self, hne, Parser.addChar]
    rw [List.foldlM_cons, hstep]
    show field.foldlM processChar ⟨.inField, begun ++ [c], fields⟩ = _
    rw [ih hn.tail (fun h => hc (List.mem_cons_of_mem _ h)), List.append_assoc]
    rfl

lemma foldlM_field (h : Unquoted field) (fields : List (List Char)) {state : ParserState}
    (hs : state = .startRecord ∨ state = .startField) :
    field.foldlM processChar ⟨state, [], fields⟩ = some ⟨.inField, field, fields⟩ := by
  obtain ⟨hn, hc, hq, hne⟩ := h
  cases field with
  | nil => exact absurd rfl hne
  | cons c field =>
    have hnl := hn c List.mem_cons_self
    have hcomma : c ≠ ',' := fun h => hc (h ▸ List.mem_cons_self)
    have hquote : c ≠ '"' := fun h => hq (by rw [h]; rfl)
    have hstep : processChar ⟨state, [], fields⟩ c = some ⟨.inField, [c], fields⟩ := by
      rcases hs with rfl | rfl <;>
        simp [processChar, startField, hnl, hcomma, hquote, Parser.addChar]
    rw [List.foldlM_cons, hstep]
    exact foldlM_inField hn.tail (fun h => hc (List.mem_cons_of_mem _ h)) [c] fields

lemma processLine_record {e : List Char} (he : e = [] ∨ LineEnd e) {fields : List (List Char)}
    (h : ∀ f ∈ fields, Unquoted f) (hne : fields ≠ []) (begun : List (List Char))
    {state : ParserState} (hs : state = .startRecord ∨ state = .startField) :
    processLine ⟨state, [], begun⟩ (record fields ++ e) =
      some ⟨.startRecord, [], begun ++ fields⟩ := by
  induction fields generalizing begun state with
  | nil => exact absurd rfl hne
  | cons field fields ih =>
    have hfield := foldlM_field (h field List.mem_cons_self) begun hs
    by_cases hlast : fields = []
    · subst hlast
      have hrecord : record [field] = field := by simp [record, List.intercalate]
      unfold processLine
      rw [hrecord, List.foldlM_append, hfield]
      exact processLine_ended he ⟨.inField, field, begun⟩ rfl
    · have hrest := ih (fun f hf => h f (List.mem_cons_of_mem _ hf)) hlast (begun ++ [field])
        (.inr rfl)
      unfold processLine at hrest ⊢
      rw [record_cons field fields hlast, List.append_assoc, List.foldlM_append, hfield]
      show Option.map processEol
        (processChar ⟨.inField, field, begun⟩ ',' >>=
          fun r => (record fields ++ e).foldlM processChar r) = _
      have hcomma : processChar ⟨.inField, field, begun⟩ ',' =
          some ⟨.startField, [], begun ++ [field]⟩ := rfl
      rw [hcomma]
      simpa [List.append_assoc] using hrest

lemma readRecords_line {lines : List (List Char)} {r : Parser}
    (h : processLine .start line = some r) (hr : r.state = .startRecord) :
    readRecords .start (line :: lines) = (readRecords .start lines).map (r.fields :: ·) := by
  rw [readRecords, h]
  exact if_pos hr

/-! ### The header -/

/-- A line in which no quoted field is left open. -/
structure OneLine (line : List Char) : Prop where
  noNewline : NoNewline line
  closed : ∀ r, line.foldlM processChar .start = some r → r.state ≠ .inQuotedField

lemma foldlM_line (hn : NoNewline line) (hr : r.state ≠ .eatCrnl) :
    ∃ r', line.foldlM processChar r = some r' ∧ r'.state ≠ .eatCrnl := by
  induction line generalizing r with
  | nil => exact ⟨r, rfl, hr⟩
  | cons c line ih =>
    have hc := hn c List.mem_cons_self
    have hstart : (startField r c).state ≠ .eatCrnl := by
      unfold startField
      rw [if_neg (by simp [hc])]
      split
      next => simp
      next => split <;> simp [Parser.saveField, Parser.addChar]
    obtain ⟨r', hr', hne⟩ : ∃ r', processChar r c = some r' ∧ r'.state ≠ .eatCrnl := by
      unfold processChar
      cases hs : r.state with
      | startRecord => exact ⟨_, by simp [hc], hstart⟩
      | startField => exact ⟨_, rfl, hstart⟩
      | inField =>
        simp only [hc]
        by_cases hcomma : c = ',' <;> simp [hcomma, Parser.saveField, Parser.addChar]
      | inQuotedField =>
        by_cases hquote : c = '"' <;> simp [hquote, Parser.addChar]
      | quoteInQuotedField =>
        by_cases hquote : c = '"'
        · simp [hquote, Parser.addChar]
        · by_cases hcomma : c = ',' <;>
            simp [hquote, hcomma, hc, Parser.saveField, Parser.addChar]
      | eatCrnl => exact absurd hs hr
    obtain ⟨r'', hr'', hne'⟩ := ih hn.tail hne
    exact ⟨r'', by rw [List.foldlM_cons, hr']; exact hr'', hne'⟩

lemma processLine_oneLine (h : OneLine line) (he : LineEnd lineEnd) :
    ∃ r, processLine .start (line ++ lineEnd) = some r ∧ r.state = .startRecord := by
  obtain ⟨⟨state, field, fields⟩, hr, hne⟩ := foldlM_line (r := .start) h.noNewline (by decide)
  have hopen := h.closed _ hr
  unfold processLine
  rw [List.foldlM_append, hr]
  cases he <;> cases state <;> first | exact ⟨_, rfl, rfl⟩ | contradiction

end Mini2.PyCsv
