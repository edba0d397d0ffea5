import Conform.Number.Binary64

/-!
Complex numbers with 64-bit parts, and their text.
-/

namespace Conform

/-- A complex number by its parts. -/
structure Complex where
  re : Binary64
  im : Binary64
  deriving Repr, DecidableEq

namespace Complex

/-- Whether both parts are zeros. -/
def isZero (z : Complex) : Bool := z.re.isZero && z.im.isZero

/-- Whether some part is undefined. -/
def isNaN (z : Complex) : Bool := z.re.isNaN || z.im.isNaN

/-- Parts are written without `.0`; a positive zero real part is left out with its brackets. -/
def text (z : Complex) : String :=
  let part := Binary64.textWith ⟨false⟩
  let im := part z.im
  if z.re.isZero && !z.re.isNegative then im ++ "j"
  else
    let sign := if im.startsWith "-" then "" else "+"
    "(" ++ part z.re ++ sign ++ im ++ "j)"

/-- The place on the line of a number without an imaginary part. -/
def magnitude? (z : Complex) : Option Magnitude :=
  if z.im.isZero then some z.re.magnitude else none

/-- Equal when both parts are. -/
def same (a b : Complex) : Bool := a.re.magnitude.same b.re.magnitude && a.im.magnitude.same b.im.magnitude

/-- Splits before the last sign that does not belong to an exponent. -/
def splitParts (cs : List Char) : List Char × List Char :=
  let rec go : List Char → List Char → List Char × List Char
    | [], after => ([], after)
    | c :: before, after =>
      let exponent := match before with
        | d :: _ => d = 'e' || d = 'E'
        | [] => false
      if (c = '+' || c = '-') && !exponent then (before.reverse, c :: after) else go before (c :: after)
  go cs.reverse []

/-- Reads a complex number, in brackets or not; `tag` marks an undefined part. -/
def ofText? (tag : Nat) (s : String) : Option Complex :=
  let cs := s.toList.filter fun c => c ≠ '(' ∧ c ≠ ')'
  match cs.reverse with
  | 'j' :: rest =>
    let (re, im) := splitParts rest.reverse
    let im := match im with
      | ['+'] => ['1']
      | ['-'] => ['-', '1']
      | [] => ['1']
      | im => im
    let whole := if re.isEmpty then some (.finite false 0 Binary64.minExponent)
      else Binary64.ofText? tag (String.ofList re)
    match whole, Binary64.ofText? tag (String.ofList im) with
    | some re, some im => some ⟨re, im⟩
    | _, _ => none
  | _ => (Binary64.ofText? tag (String.ofList cs)).map fun re => ⟨re, .finite false 0 Binary64.minExponent⟩

end Complex
end Conform
