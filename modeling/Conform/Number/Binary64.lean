import Conform.Number.Digits
import Conform.Number.Magnitude

/-!
Binary numbers of 64 bits as exact data: a sign, a mantissa below `2 ^ 53` and an exponent of two.
`Binary64.nearest` rounds a ratio to the nearest such number, a half to the even mantissa;
`Binary64.shortest` gives the fewest decimal digits that round back to the number.
-/

namespace Conform

/-- A 64-bit binary number. A finite one is `± mantissa · 2 ^ exponent`; each undefined result has a
tag, because two of them are the same object only when they came from one place. -/
inductive Binary64 where
  | nan (tag : Nat)
  | infinity (negative : Bool)
  | finite (negative : Bool) (mantissa : Nat) (exponent : Int)
  deriving Repr, DecidableEq

namespace Binary64

/-- Mantissas have at most this many bits. -/
def precision : Nat := 53

/-- The exponent of the smallest positive number. -/
def minExponent : Int := -1074

/-- The exponent of the largest finite numbers. -/
def maxExponent : Int := 971

/-- The quotient of two naturals rounded to the nearest natural, a half to the even one. -/
def roundHalfEven (num den : Nat) : Nat :=
  let q := num / den
  let r := num % den
  if 2 * r < den then q else if den < 2 * r then q + 1 else if q % 2 = 0 then q else q + 1

/-- A number as a fraction of naturals after division by a power of two. -/
def scaleDown (num den : Nat) (exponent : Int) : Nat × Nat :=
  match exponent with
  | .ofNat e => (num, den * Nat.pow 2 e)
  | .negSucc e => (num * Nat.pow 2 (e + 1), den)

/-- The finite number nearest to the ratio `num / den`, or an infinity beyond the largest. -/
def nearest (negative : Bool) (num den : Nat) : Binary64 :=
  if num = 0 then .finite negative 0 minExponent
  else
    let guess : Int := (Nat.log2 num : Int) - (Nat.log2 den : Int) - (precision - 1 : Nat)
    let (n, d) := scaleDown num den guess
    let top : Int := if n / d < Nat.pow 2 (precision - 1) then guess - 1 else guess
    let exponent := max top minExponent
    let (n, d) := scaleDown num den exponent
    let m := roundHalfEven n d
    let (m, exponent) := if m = Nat.pow 2 precision then (Nat.pow 2 (precision - 1), exponent + 1) else (m, exponent)
    if exponent > maxExponent then .infinity negative else .finite negative m exponent

/-- The finite number nearest to `± coefficient · 10 ^ exponent`. Exponents far outside the range are
settled without computing the power. -/
def ofDecimal (negative : Bool) (coefficient : Nat) (exponent : Int) : Binary64 :=
  let top := exponent + digitCount coefficient
  if coefficient = 0 ∨ top < -400 then .finite negative 0 minExponent
  else if top > 400 then .infinity negative
  else
    match exponent with
    | .ofNat e => nearest negative (coefficient * Nat.pow 10 e) 1
    | .negSucc e => nearest negative coefficient (Nat.pow 10 (e + 1))

/-- The place of a number on the line; both zeros stand at zero. -/
def magnitude : Binary64 → Magnitude
  | .nan _ => .undefined
  | .infinity negative => if negative then .negInfinity else .posInfinity
  | .finite negative m e => .scaled negative m 2 e

/-- Whether a number is undefined. -/
def isNaN : Binary64 → Bool
  | .nan _ => true
  | _ => false

/-- Whether a number is a zero of either sign. -/
def isZero : Binary64 → Bool
  | .finite _ 0 _ => true
  | _ => false

/-- The whole number that a number equals, if it equals one. -/
def toInt? : Binary64 → Option Int
  | .finite negative m e =>
    let sign (n : Nat) : Int := if negative then -(n : Int) else n
    match e with
    | .ofNat k => some (sign (m * Nat.pow 2 k))
    | .negSucc k => if m % Nat.pow 2 (k + 1) = 0 then some (sign (m / Nat.pow 2 (k + 1))) else none
  | _ => none

/-! ### Shortest digits -/

/-- A positive number as a fraction, with the two midpoints to its neighbours over the same
denominator, and whether the midpoints round to it. -/
structure Interval where
  low : Nat
  value : Nat
  high : Nat
  den : Nat
  closed : Bool

/-- The ratios that round to a positive mantissa and exponent. Below a power of two the neighbours are
half as far apart. -/
def interval (mantissa : Nat) (exponent : Int) : Interval :=
  let narrow := mantissa = Nat.pow 2 (precision - 1) ∧ exponent ≠ minExponent
  let (num, den) : Nat × Nat := match exponent with
    | .ofNat e => (Nat.pow 2 e, 4)
    | .negSucc e => (1, 4 * Nat.pow 2 (e + 1))
  { low := (4 * mantissa - (if narrow then 1 else 2)) * num
    value := 4 * mantissa * num
    high := (4 * mantissa + 2) * num
    den
    closed := mantissa % 2 = 0 }

/-- Whether the decimal `digits · 10 ^ exponent` rounds back to the number. -/
def Interval.admits (i : Interval) (digits : Nat) (exponent : Int) : Bool :=
  let (d, scale) : Nat × Nat := match exponent with
    | .ofNat e => (digits * Nat.pow 10 e * i.den, 1)
    | .negSucc e => (digits * i.den, Nat.pow 10 (e + 1))
  if i.closed then i.low * scale ≤ d ∧ d ≤ i.high * scale else i.low * scale < d ∧ d < i.high * scale

/-- The position of the decimal point: the value is below `10 ^ p` and not below `10 ^ (p - 1)`. -/
def Interval.pointPosition (i : Interval) : Int :=
  let p : Int := (digitCount i.value : Int) - digitCount i.den
  let reached := match p with
    | .ofNat e => decide (i.den * Nat.pow 10 e ≤ i.value)
    | .negSucc e => decide (i.den ≤ i.value * Nat.pow 10 (e + 1))
  if reached then p + 1 else p

/-- Of the two neighbours of the value on the grid of `10 ^ exponent`, the nearer that rounds back to
it; the even one when both are equally near. -/
def Interval.onGrid? (i : Interval) (exponent : Int) : Option Nat :=
  let (num, den) : Nat × Nat := match exponent with
    | .ofNat e => (i.value, i.den * Nat.pow 10 e)
    | .negSucc e => (i.value * Nat.pow 10 (e + 1), i.den)
  let near := roundHalfEven num den
  let floor := num / den
  let far := if near = floor then floor + 1 else floor
  if i.admits near exponent then some near
  else if i.admits far exponent then some far
  else none

/-- The first grid, from coarse to fine, that has a decimal in the interval. -/
def Interval.search (i : Interval) (p : Int) : (left digits : Nat) → Nat × Int
  | 0, digits => (roundHalfEven i.value i.den, p - digits)
  | left + 1, digits =>
    match i.onGrid? (p - digits) with
    | some n => (n, p - digits)
    | none => i.search p left (digits + 1)

/-- The fewest decimal digits that round back to a positive number, as a coefficient and an exponent
of ten. Seventeen digits always do. -/
def shortest (mantissa : Nat) (exponent : Int) : Nat × Int :=
  let i := interval mantissa exponent
  let (n, e) := i.search i.pointPosition 17 1
  let (n, k) := stripTens 17 n
  (n, e + k)

/-! ### Text -/

/-- How a number is written: whether whole numbers keep a fractional zero. -/
structure Layout where
  keepPoint : Bool

/-- The digits of a positive number around its decimal point: positional from `10 ^ -4` up to
`10 ^ 16`, else with one digit before the point and an exponent. -/
def layoutText (layout : Layout) (coefficient : Nat) (exponent : Int) : String :=
  let ds := decimalDigits coefficient
  let point : Int := ds.length + exponent
  if -4 < point ∧ point ≤ 16 then
    if point ≤ 0 then "0." ++ String.ofList (List.replicate point.natAbs '0' ++ ds)
    else if ds.length ≤ point then
      String.ofList (ds ++ List.replicate (point.toNat - ds.length) '0')
        ++ (if layout.keepPoint then ".0" else "")
    else String.ofList (ds.take point.toNat) ++ "." ++ String.ofList (ds.drop point.toNat)
  else
    let tail := ds.drop 1
    String.ofList (ds.take 1) ++ (if tail.isEmpty then "" else "." ++ String.ofList tail)
      ++ "e" ++ exponentText (point - 1)

def textWith (layout : Layout) : Binary64 → String
  | .nan _ => "nan"
  | .infinity negative => if negative then "-inf" else "inf"
  | .finite negative m e =>
    let body :=
      if m = 0 then (if layout.keepPoint then "0.0" else "0")
      else let (n, k) := shortest m e; layoutText layout n k
    if negative then "-" ++ body else body

/-- The default text: a whole number keeps `.0`. -/
def text (x : Binary64) : String := textWith ⟨true⟩ x

/-- Whether the sign bit is set; an undefined number has none. -/
def isNegative : Binary64 → Bool
  | .nan _ => false
  | .infinity negative => negative
  | .finite negative _ _ => negative

/-- Reads an optional sign. -/
def takeSign : List Char → Bool × List Char
  | '-' :: rest => (true, rest)
  | '+' :: rest => (false, rest)
  | rest => (false, rest)

/-- Reads an exponent part, which may be missing. -/
def takeExponent : List Char → Option Int
  | [] => some 0
  | c :: rest =>
    if c = 'e' ∨ c = 'E' then
      let (negative, body) := takeSign rest
      match takeDigits body with
      | ([], _) => none
      | (ds, []) => some (if negative then -(ofDigits ds : Int) else ofDigits ds)
      | _ => none
    else none

/-- Reads digits with an optional point and exponent as a coefficient and an exponent of ten. -/
def takeDecimal (cs : List Char) : Option (Nat × Int) :=
  let (whole, rest) := takeDigits cs
  let (fraction, rest) := match rest with
    | '.' :: rest => takeDigits rest
    | rest => ([], rest)
  if whole.isEmpty ∧ fraction.isEmpty then none
  else (takeExponent rest).map fun e => (ofDigits (whole ++ fraction), e - fraction.length)

/-- Reads a number; `tag` marks an undefined one. -/
def ofText? (tag : Nat) (s : String) : Option Binary64 :=
  let (negative, body) := takeSign s.toList
  match (String.ofList body).toLower with
  | "nan" => some (.nan tag)
  | "inf" | "infinity" => some (.infinity negative)
  | _ => (takeDecimal body).map fun (n, e) => ofDecimal negative n e

end Binary64
end Conform
