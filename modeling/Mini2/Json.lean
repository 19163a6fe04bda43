import Mathlib.Data.List.TakeWhile
import Mathlib.Data.Rat.Defs
import Mathlib.Data.String.Basic
import Mini2.Lib.SortedMap

/-!
The reader of `manifest.json`: a lexer, and a recursive descent that takes what it finds. There
is no error: a parser that meets a token it has no use for ends with what it has read so far.

A text is a list of characters, one for each byte, and a reader leaves what it has not read of
the text. How a number is read is a parameter: `stod` gives the value of the characters, zero
where the library throws.
-/

namespace Mini2.Json

open Mini2.SortedMap

/-! ### Tokens -/

inductive Tok
  | lbrace | rbrace | lbracket | rbracket | colon | comma
  | str (s : String)
  | num (n : ℚ)
  | true | false | null | ended

def ws (c : Char) : Bool := c == ' ' || c == '\n' || c == '\r' || c == '\t'

def numeric (c : Char) : Bool :=
  ('0' ≤ c && c ≤ '9') || c == '.' || c == 'e' || c == 'E' || c == '+' || c == '-'

def unescape (c : Char) : Char :=
  match c with
  | 'n' => '\n'
  | 't' => '\t'
  | c => c

/-- What is left of a string behind its opening quote, and what follows the string. -/
def lexString : List Char → List Char × List Char
  | [] => ([], [])
  | '"' :: s => ([], s)
  | '\\' :: c :: s => ((lexString s).1.cons (unescape c), (lexString s).2)
  | c :: s => ((lexString s).1.cons c, (lexString s).2)

variable (stod : List Char → ℚ)

/-- A token that begins with none of the delimiters: a word, or else a number, of no character
if need be. -/
def lexOther (s : List Char) : Tok × List Char :=
  if s.take 4 = ['t', 'r', 'u', 'e'] then (.true, s.drop 4)
  else if s.take 5 = ['f', 'a', 'l', 's', 'e'] then (.false, s.drop 5)
  else if s.take 4 = ['n', 'u', 'l', 'l'] then (.null, s.drop 4)
  else (.num (stod (s.takeWhile numeric)), s.dropWhile numeric)

/-- `Lex::next`. -/
def next (s : List Char) : Tok × List Char :=
  match s.dropWhile ws with
  | [] => (.ended, [])
  | '{' :: s => (.lbrace, s)
  | '}' :: s => (.rbrace, s)
  | '[' :: s => (.lbracket, s)
  | ']' :: s => (.rbracket, s)
  | ':' :: s => (.colon, s)
  | ',' :: s => (.comma, s)
  | '"' :: s => (.str (String.ofList (lexString s).1), (lexString s).2)
  | s => lexOther stod s

/-! ### Values -/

/-- A value. The fields of an object stand in the order of their keys. -/
inductive Value
  | null
  | str (s : String)
  | num (n : ℚ)
  | bool (b : Bool)
  | obj (fields : List (String × Value))
  | arr (items : List Value)

mutual

/-- `parse_value`, in at most as many nested calls and rounds as the first argument says. -/
def parseValue : ℕ → List Char → Option (Value × List Char)
  | 0, _ => none
  | k + 1, s =>
    match next stod s with
    | (.lbrace, s) => parseObject k s
    | (.lbracket, s) => parseArray k s
    | (.str t, s) => some (.str t, s)
    | (.num n, s) => some (.num n, s)
    | (.true, s) => some (.bool true, s)
    | (.false, s) => some (.bool false, s)
    | (_, s) => some (.null, s)

/-- `parse_object`, behind the opening brace. -/
def parseObject : ℕ → List Char → Option (Value × List Char)
  | 0, _ => none
  | k + 1, s =>
    match next stod s with
    | (.rbrace, s) => some (.obj [], s)
    | (t, s) => objectLoop k [] t s

/-- The loop over the fields: `t` has been read, and the map so far is `m`. -/
def objectLoop : ℕ → List (String × Value) → Tok → List Char → Option (Value × List Char)
  | 0, _, _, _ => none
  | k + 1, m, t, s =>
    match t with
    | .str key =>
      match next stod s with
      | (.colon, s) =>
        match parseValue k s with
        | none => none
        | some (child, s) =>
          let m := insertKey key child m
          match next stod s with
          | (.rbrace, s) => some (.obj m, s)
          | (.comma, s) => objectLoop k m (next stod s).1 (next stod s).2
          | (_, s) => some (.obj m, s)
      | (_, s) => some (.obj m, s)
    | _ => some (.obj m, s)

/-- `parse_array`, behind the opening bracket: the first token is only looked at. -/
def parseArray : ℕ → List Char → Option (Value × List Char)
  | 0, _ => none
  | k + 1, s =>
    match next stod s with
    | (.rbracket, s) => some (.arr [], s)
    | _ => arrayLoop k [] s

/-- The loop over the items: those so far are `vs`. -/
def arrayLoop : ℕ → List Value → List Char → Option (Value × List Char)
  | 0, _, _ => none
  | k + 1, vs, s =>
    match parseValue k s with
    | none => none
    | some (child, s) =>
      let vs := vs ++ [child]
      match next stod s with
      | (.rbracket, s) => some (.arr vs, s)
      | (.comma, s) => arrayLoop k vs s
      | (_, s) => some (.arr vs, s)

end

/-- `parse_root`, with rounds enough for the text. -/
def parseRoot (s : List Char) : Option Value :=
  (parseValue stod (3 * s.length + 1) s).map Prod.fst

end Mini2.Json
