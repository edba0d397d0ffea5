import Conform.Number.Binary64

/-!
Decimal numbers that keep their trailing zeros: a sign, a coefficient and an exponent of ten. Two
spellings of one number are equal as numbers and are written differently.
-/

namespace Conform

/-- A decimal number. Each undefined one has a tag, as an undefined `Binary64` has. -/
inductive Decimal where
  | nan (tag : Nat) (negative : Bool)
  | infinity (negative : Bool)
  | finite (negative : Bool) (coefficient : Nat) (exponent : Int)
  deriving Repr, DecidableEq

namespace Decimal

/-- The place of a decimal on the line. -/
def magnitude : Decimal → Magnitude
  | .nan _ _ => .undefined
  | .infinity negative => if negative then .negInfinity else .posInfinity
  | .finite negative c e => .scaled negative c 10 e

/-- Whether a decimal is a zero of either sign and any exponent. -/
def isZero : Decimal → Bool
  | .finite _ 0 _ => true
  | _ => false

/-- The digits with the point where the exponent puts it; scientific when the exponent is positive or
the value is below `10 ^ -6`. -/
def finiteText (coefficient : Nat) (exponent : Int) : String :=
  let ds := decimalDigits coefficient
  let left : Int := exponent + ds.length
  if exponent ≤ 0 ∧ -6 < left then
    if left ≤ 0 then "0." ++ String.ofList (List.replicate left.natAbs '0' ++ ds)
    else
      let fraction := ds.drop left.toNat
      String.ofList (ds.take left.toNat)
        ++ (if fraction.isEmpty then "" else "." ++ String.ofList fraction)
  else
    let fraction := ds.drop 1
    let shift := left - 1
    String.ofList (ds.take 1) ++ (if fraction.isEmpty then "" else "." ++ String.ofList fraction)
      ++ "E" ++ (if shift < 0 then "-" else "+") ++ toString shift.natAbs

def text : Decimal → String
  | .nan _ negative => if negative then "-NaN" else "NaN"
  | .infinity negative => if negative then "-Infinity" else "Infinity"
  | .finite negative c e => (if negative then "-" else "") ++ finiteText c e

/-- Reads a decimal; `tag` marks an undefined one. -/
def ofText? (tag : Nat) (s : String) : Option Decimal :=
  let (negative, body) := Binary64.takeSign s.toList
  match (String.ofList body).toLower with
  | "nan" => some (.nan tag negative)
  | "inf" | "infinity" => some (.infinity negative)
  | _ => (Binary64.takeDecimal body).map fun (n, e) => .finite negative n e

end Decimal
end Conform
