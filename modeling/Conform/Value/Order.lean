import Conform.Value.Equality
import Conform.Fault

/-!
The order of values. Numbers are ordered exactly, whatever their kinds; texts and bytes
lexicographically; collections by their first difference; sets by inclusion; dates and moments in time.
Other pairs have no order, and an undefined decimal makes the question itself a fault.
-/

namespace Conform

namespace Value

/-- The order of two numbers. A decimal next to an undefined number has none. -/
def numberLt (a b : Value) (x y : Magnitude) : Except Fault Bool :=
  let decimal := match a, b with
    | .decimal _, _ | _, .decimal _ => true
    | _, _ => false
  if decimal && (x == .undefined || y == .undefined) then .error .undefinedDecimal
  else .ok (x.below y)

def bytesLt : List UInt8 → List UInt8 → Bool
  | _, [] => false
  | [], _ :: _ => true
  | x :: xs, y :: ys => if x < y then true else if y < x then false else bytesLt xs ys

/-- Why two values have no order. -/
def unorderedFault (a b : Value) : Fault :=
  match a, b with
  | .moment _, .moment _ => .mixedOffsets
  | .moment _, .date _ | .date _, .moment _ => .momentAndDate
  | a, b => .unordered "<" a.fullName b.fullName

/-- The order of values that hold no others. -/
def scalarLt (a b : Value) : Except Fault Bool :=
  match a.magnitude?, b.magnitude? with
  | some x, some y => numberLt a b x y
  | _, _ =>
    match a, b with
    | .date d, .date e => .ok (d.ordinal < e.ordinal)
    | .moment m, .moment n => match m.comparable? n with
      | some (x, y) => .ok (x < y)
      | none => .error (unorderedFault a b)
    | .bytes _ xs, .bytes _ ys => .ok (bytesLt xs ys)
    | .set _ xs, .set _ ys => .ok (xs.length < ys.length && eqAll xs ys)
    | _, _ => match a.asText?, b.asText? with
      | some s, some t => .ok (s < t)
      | _, _ => .error (unorderedFault a b)

mutual

/-- Whether one value is below another. -/
def lt : Value → Value → Except Fault Bool
  | .sequence k xs, b =>
    match b with
    | .sequence k' ys => if k = k' then ltItems xs ys else .error (unorderedFault (.sequence k xs) b)
    | b => .error (unorderedFault (.sequence k xs) b)
  | a, b => scalarLt a b

/-- The order of two lists: that of their first difference, else that of their lengths. -/
def ltItems : List Value → List Value → Except Fault Bool
  | _, [] => .ok false
  | [], _ :: _ => .ok true
  | x :: xs, y :: ys => if same x y then ltItems xs ys else lt x y

end

/-- Whether one value is above another. -/
def gt (a b : Value) : Except Fault Bool := (lt b a).mapError Fault.flip

end Value
end Conform
