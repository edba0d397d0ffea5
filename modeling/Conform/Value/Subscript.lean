import Conform.Value.Collection

/-!
What a position, a key or a slice takes from a value. Negative positions count from the end; a slice takes
every position between its ends that its step reaches, and never fails for being too long.
-/

namespace Conform
namespace Value

/-- The longest that a collection can be, and one. -/
def lengthLimit : Nat := Nat.pow 2 63

/-- The item at a position of a kind of collection. -/
def itemAt (what : String) (items : List Value) (key : Value) : Except Fault Value :=
  match key.asInt? with
  | none => .error (.indexType what key.fullName)
  | some i =>
    if i < -(lengthLimit : Int) || (lengthLimit : Int) ≤ i then .error .indexSize
    else match atPosition? items i with
      | some v => .ok v
      | none => .error (.indexOutOfRange what)

/-- What stands at a position or under a key of a value. -/
def subscript (v key : Value) : Except Fault Value :=
  match v with
  | .mapping _ entries => do
    key.requireKey
    match lookup? key entries with
    | some w => return w
    | none => throw (.missingKey key.repr)
  | .sequence .list items => itemAt "list" items key
  | .sequence .tuple items => itemAt "tuple" items key
  | .sequence .deque items => itemAt "deque" items key
  | .record r attributes =>
    if r.cls = .violations then itemAt "list" (attributes.map Prod.snd) key
    else .error (.notSubscriptable r.cls.name)
  | v => .error (.notSubscriptable v.fullName)

/-- A slice, whose ends and step may be left out. -/
structure Slice where
  start : Option Int
  stop : Option Int
  step : Option Int
  deriving Repr

/-- The positions that a slice takes of a collection of some length. -/
def Slice.positions (s : Slice) (length : Nat) : Except Fault (List Int) :=
  let n : Int := length
  let step := s.step.getD 1
  let clamp (low high i : Int) : Int := max low (min high (if i < 0 then i + n else i))
  if step = 0 then .error .zeroStep
  else
    let (first, last) :=
      if 0 < step then ((s.start.map (clamp 0 n)).getD 0, (s.stop.map (clamp 0 n)).getD n)
      else ((s.start.map (clamp (-1) (n - 1))).getD (n - 1), (s.stop.map (clamp (-1) (n - 1))).getD (-1))
    .ok ((List.range (rangeLength first last step)).map fun (i : Nat) => first + step * i)

def Slice.take (s : Slice) (items : List Value) : Except Fault (List Value) :=
  (s.positions items.length).map fun ps => ps.filterMap fun i => items[i.toNat]?

/-- A slice of a value; tuples give tuples, and other collections with positions give lists. -/
def slice (v : Value) (s : Slice) : Except Fault Value :=
  match v with
  | .sequence .tuple items => (s.take items).map .tuple
  | .mapping .. => .error (.unhashable "slice")
  | v => match v.positional? with
    | some items => (s.take items).map .list
    | none => .error (.notSubscriptable v.fullName)

end Value
end Conform
