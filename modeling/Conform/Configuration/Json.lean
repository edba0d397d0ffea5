import Conform.Number.Digits
import Conform.Value.Collection

/-!
Reading JSON text. Besides the standard's values the names `NaN`, `Infinity` and `-Infinity` are read as
numbers; a repeated key keeps its place and takes the later value. A problem is reported with the position
at which it is found.
-/

namespace Conform
namespace Json

/-- What is wrong with a text, and how many characters are left where it is found. -/
structure Problem where
  message : String
  left : Nat
  deriving Repr

/-- A problem before a rest of the text. -/
def fail {α : Type} (message : String) (rest : List Char) : Except Problem α := .error ⟨message, rest.length⟩

/-- Whether a character may stand between values. -/
def isSpace (c : Char) : Bool := c == ' ' || c == '\t' || c == '\n' || c == '\r'

/-- The rest of a text after spaces. -/
def skipSpace (cs : List Char) : List Char := cs.dropWhile isSpace

/-- The rest of a text after a word, if it starts with it. -/
def skipWord (word : String) (cs : List Char) : Option (List Char) :=
  if word.toList.isPrefixOf cs then some (cs.drop word.length) else none

/-- The code unit of four hexadecimal digits, which must not end the text. -/
def codeUnit? : List Char → Option (Nat × List Char)
  | a :: b :: c :: d :: e :: rest => do
    let units ← [a, b, c, d].mapM hexValue?
    return (units.foldl (fun n u => 16 * n + u) 0, e :: rest)
  | _ => none

/-- Whether a code unit opens a pair. -/
def opensPair (u : Nat) : Bool := 0xD800 ≤ u && u < 0xDC00

/-- Whether a code unit closes a pair. -/
def closesPair (u : Nat) : Bool := 0xDC00 ≤ u && u < 0xE000

/-- The character of a code unit; half of a pair stands for no character and is replaced. -/
def unitChar (u : Nat) : Char := if 0xD800 ≤ u ∧ u < 0xE000 then Char.ofNat 0xFFFD else Char.ofNat u

/-- A character written as one code unit or as a pair of them; the text stands after the `u`. -/
def escapedUnit (cs : List Char) : Except Problem (Char × List Char) :=
  match codeUnit? cs with
  | none => .error ⟨"Invalid \\uXXXX escape", cs.length + 1⟩
  | some (u, rest) =>
    match opensPair u, rest with
    | true, '\\' :: 'u' :: more =>
      if more.length ≤ 4 then .ok (unitChar u, rest)
      else match codeUnit? more with
        | none => .error ⟨"Invalid \\uXXXX escape", more.length + 1⟩
        | some (l, after) =>
          if closesPair l then .ok (Char.ofNat (0x10000 + (u - 0xD800) * 1024 + (l - 0xDC00)), after)
          else .ok (unitChar u, rest)
    | _, _ => .ok (unitChar u, rest)

/-- The character that a short escape stands for. -/
def shortEscape? (c : Char) : Option Char :=
  [('"', '"'), ('\\', '\\'), ('/', '/'), ('b', '\x08'), ('f', '\x0c'), ('n', '\n'), ('r', '\r'),
    ('t', '\t')].lookup c

/-- The rest of a string after its opening quote, whose characters so far are reversed; `start` is what was
left at the quote. -/
def stringRest (start : Nat) : (fuel : Nat) → List Char → List Char → Except Problem (String × List Char)
  | 0, _, _ => .error ⟨"Unterminated string starting at", start⟩
  | fuel + 1, done, cs =>
    match cs with
    | [] => .error ⟨"Unterminated string starting at", start⟩
    | '"' :: rest => .ok (String.ofList done.reverse, rest)
    | '\\' :: rest =>
      match rest with
      | [] => .error ⟨"Unterminated string starting at", start⟩
      | 'u' :: more => do
        let (c, after) ← escapedUnit more
        stringRest start fuel (c :: done) after
      | c :: more => match shortEscape? c with
        | some e => stringRest start fuel (e :: done) more
        | none => fail "Invalid \\escape" cs
    | c :: rest =>
      if c.toNat < 32 then fail "Invalid control character at" cs
      else stringRest start fuel (c :: done) rest

/-- A string, of which the opening quote has been read. -/
def string (cs : List Char) : Except Problem (String × List Char) :=
  stringRest (cs.length + 1) (cs.length + 1) [] cs

/-- The digits at the start of a text. -/
def digits (cs : List Char) : List Char × List Char := (cs.takeWhile Char.isDigit, cs.dropWhile Char.isDigit)

/-- The whole part of a number: zero, or digits that do not start with it. -/
def wholePart (cs : List Char) : Option (List Char × List Char) :=
  match cs with
  | '0' :: rest => some (['0'], rest)
  | cs => match digits cs with
    | ([], _) => none
    | split => some split

/-- The fraction of a number with its point, if it has one. -/
def fractionPart (cs : List Char) : List Char × List Char :=
  match cs with
  | '.' :: rest => match digits rest with
    | ([], _) => ([], cs)
    | (ds, rest) => ('.' :: ds, rest)
  | cs => ([], cs)

/-- The exponent of a number with its mark, if it has one. -/
def exponentPart (cs : List Char) : List Char × List Char :=
  match cs with
  | c :: rest =>
    if c = 'e' ∨ c = 'E' then
      let (sign, body) := match rest with
        | '+' :: body => (['+'], body)
        | '-' :: body => (['-'], body)
        | body => ([], body)
      match digits body with
      | ([], _) => ([], cs)
      | (ds, rest) => (c :: sign ++ ds, rest)
    else ([], cs)
  | [] => ([], [])

/-- A number at the start of a text, if there is one: a whole one unless it has a fraction or an exponent. -/
def number? (cs : List Char) : Option (Value × List Char) := do
  let (negative, body) := match cs with
    | '-' :: rest => (true, rest)
    | rest => (false, rest)
  let (whole, rest) ← wholePart body
  let (fraction, rest) := fractionPart rest
  let (exponent, rest) := exponentPart rest
  if fraction.isEmpty && exponent.isEmpty then
    let n := whole.foldl (fun n c => 10 * n + (c.toNat - '0'.toNat)) 0
    return (.int (if negative then -(n : Int) else n), rest)
  else
    let sign := if negative then ['-'] else []
    let x ← Binary64.ofText? 0 (String.ofList (sign ++ whole ++ fraction ++ exponent))
    return (.float x, rest)

/-- The values that are written as one word. -/
def words : List (String × Value) :=
  [("null", .absent), ("true", .bool true), ("false", .bool false), ("NaN", .float (.nan 0)),
    ("Infinity", .float (.infinity false)), ("-Infinity", .float (.infinity true))]

/-- A value that holds no others. -/
def atom (cs : List Char) : Except Problem (Value × List Char) :=
  match words.findSome? fun (w, v) => (skipWord w cs).map fun rest => (v, rest) with
  | some found => .ok found
  | none => match number? cs with
    | some found => .ok found
    | none => fail "Expecting value" cs

mutual

/-- A value at the start of a text. -/
def value : (fuel : Nat) → List Char → Except Problem (Value × List Char)
  | 0, cs => fail "Expecting value" cs
  | fuel + 1, cs =>
    match cs with
    | '"' :: rest => (string rest).map fun (s, rest) => (.text s, rest)
    | '[' :: rest =>
      match skipSpace rest with
      | ']' :: rest => .ok (.list [], rest)
      | rest => items fuel [] rest
    | '\x7b' :: rest =>
      match skipSpace rest with
      | '\x7d' :: rest => .ok (.dict [], rest)
      | rest => members fuel [] rest
    | cs => atom cs

/-- The rest of an array after those items that were read. -/
def items : (fuel : Nat) → List Value → List Char → Except Problem (Value × List Char)
  | 0, _, cs => fail "Expecting value" cs
  | fuel + 1, done, cs => do
    let (v, rest) ← value fuel cs
    match skipSpace rest with
    | ']' :: rest => return (.list (done ++ [v]), rest)
    | ',' :: rest => items fuel (done ++ [v]) (skipSpace rest)
    | rest => fail "Expecting ',' delimiter" rest

/-- The rest of an object after those members that were read. -/
def members : (fuel : Nat) → List (Value × Value) → List Char → Except Problem (Value × List Char)
  | 0, _, cs => fail "Expecting value" cs
  | fuel + 1, done, cs =>
    match cs with
    | '"' :: rest => do
      let (key, rest) ← string rest
      match skipSpace rest with
      | ':' :: rest => do
        let (v, rest) ← value fuel (skipSpace rest)
        let done := Value.assign (.text key) v done
        match skipSpace rest with
        | '\x7d' :: rest => return (.dict done, rest)
        | ',' :: rest => members fuel done (skipSpace rest)
        | rest => fail "Expecting ',' delimiter" rest
      | rest => fail "Expecting ':' delimiter" rest
    | cs => fail "Expecting property name enclosed in double quotes" cs

end

/-- A text as one value; every nesting takes a character, so the length of the text bounds the depth. -/
def document (cs : List Char) : Except Problem Value :=
  match cs with
  | '\uFEFF' :: _ => fail "Unexpected UTF-8 BOM (decode using utf-8-sig)" cs
  | cs => do
    let (v, rest) ← value (2 * cs.length + 2) (skipSpace cs)
    match skipSpace rest with
    | [] => return v
    | rest => fail "Extra data" rest

/-- The wording of a problem in a text: the line, the column and the position are counted from the start. -/
def Problem.text (p : Problem) (source : List Char) : String :=
  let position := source.length - p.left
  let before := source.take position
  let line := before.count '\n' + 1
  let column := (before.reverse.takeWhile (· ≠ '\n')).length + 1
  p.message ++ ": line " ++ toString line ++ " column " ++ toString column
    ++ " (char " ++ toString position ++ ")"

/-- Reads a text. -/
def parse (source : String) : Except String Value :=
  (document source.toList).mapError fun p => p.text source.toList

end Json
end Conform
