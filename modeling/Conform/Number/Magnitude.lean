/-!
The extended line that numbers of every kind are compared on: exact ratios, the two infinities and
one undefined place. Numbers of different kinds are equal, or ordered, exactly when their places
are; the undefined place is equal to nothing and below nothing.
-/

namespace Conform

/-- Where a number stands. A ratio's denominator is positive in every value the library makes. -/
inductive Magnitude where
  | undefined
  | negInfinity
  | ratio (num : Int) (den : Nat)
  | posInfinity
  deriving Repr, DecidableEq

namespace Magnitude

/-- The place of a whole number. -/
def ofInt (n : Int) : Magnitude := .ratio n 1

/-- The place of `± coefficient · base ^ exponent`. -/
def scaled (negative : Bool) (coefficient base : Nat) (exponent : Int) : Magnitude :=
  let signed : Int := if negative then -(coefficient : Int) else coefficient
  match exponent with
  | .ofNat e => .ratio (signed * Nat.pow base e) 1
  | .negSucc e => .ratio signed (Nat.pow base (e + 1))

/-- Ratios are equal when their cross products are. -/
def same : Magnitude → Magnitude → Bool
  | .negInfinity, .negInfinity => true
  | .posInfinity, .posInfinity => true
  | .ratio a b, .ratio c d => a * d == c * b
  | _, _ => false

/-- Strictly to the left on the line. -/
def below : Magnitude → Magnitude → Bool
  | .undefined, _ => false
  | _, .undefined => false
  | .negInfinity, .negInfinity => false
  | .negInfinity, _ => true
  | _, .negInfinity => false
  | .posInfinity, _ => false
  | _, .posInfinity => true
  | .ratio a b, .ratio c d => a * d < c * b

end Magnitude
end Conform
