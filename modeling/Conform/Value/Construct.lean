import Conform.Number.Digits
import Conform.Text.Classes
import Conform.Value.Collection

/-!
Calling the classes that every program has: with nothing they give their empty value, and with a value what
they make of it.
-/

namespace Conform

/-- The digits of a whole number; single underscores may stand between them. -/
def spacedDigits? : (mayEnd : Bool) → List Char → Option (List Nat)
  | mayEnd, [] => if mayEnd then some [] else none
  | mayEnd, '_' :: rest => if mayEnd then spacedDigits? false rest else none
  | _, c :: rest => do
    let d ← digitValue? c
    let ds ← spacedDigits? true rest
    return d :: ds

/-- The whole number that a text shows, with blanks around it and a sign. -/
def wholeNumber? (s : String) : Option Int :=
  match (trimBlanks s).toList with
  | '-' :: rest => (spacedDigits? false rest).map fun ds => -(ofDigits ds : Int)
  | '+' :: rest | rest => (spacedDigits? false rest).map fun ds => (ofDigits ds : Int)

namespace Value

def toWhole (v : Value) : Except Fault Int :=
  match v.asInt? with
  | some n => .ok n
  | none => match v with
    | .float x => match x.toInt? with
      | some n => .ok n
      | none => if x.isNaN then .error (.raised "ValueError" "cannot convert float NaN to integer")
        else .error (.raised "OverflowError" "cannot convert float infinity to integer")
    | v => match v.asText? with
      | some s => match wholeNumber? s with
        | some n => .ok n
        | none => .error (.raised "ValueError" ("invalid literal for int() with base 10: " ++ v.repr))
      | none => .error (.raised "TypeError"
        ("int() argument must be a string, a bytes-like object or a real number, not '" ++ v.fullName ++ "'"))

/-- The items of a value, which must have some. -/
def iterate (v : Value) : Except Fault (List Value) :=
  match v.iterate? with
  | some items => .ok items
  | none => .error (.notIterable v.fullName)

/-- The members of a set of some items, which must be hashable. -/
def toMembers (items : List Value) : Except Fault (List Value) := do
  items.forM requireKey
  return distinct items

/-- The entries of a mapping of some pairs, whose keys must be hashable. -/
def toEntries (pairs : List (Value × Value)) : Except Fault (List (Value × Value)) := do
  pairs.forM fun (k, _) => k.requireKey
  return ofPairs pairs

/-- A key and a value from an item, which stands at a position among others. -/
def toEntry (position : Nat) (item : Value) : Except Fault (Value × Value) :=
  match item.iterate? with
  | some [k, v] => .ok (k, v)
  | some parts => .error (.entrySize position parts.length)
  | none => .error (.entryType position)

/-- The entries of a mapping, or of items that are pairs. -/
def toMapping (v : Value) : Except Fault (List (Value × Value)) :=
  match v with
  | .mapping _ entries => .ok entries
  | v => do
    let pairs ← (← v.iterate).zipIdx.mapM fun (item, i) => toEntry i item
    toEntries pairs

end Value

namespace BuiltinClass

/-- What a class gives when it is called with nothing. -/
def emptyValue? : BuiltinClass → Option Value
  | .bool => some (.bool false)
  | .int => some (.int 0)
  | .float => some (.float (.finite false 0 Binary64.minExponent))
  | .str => some (.text "")
  | .bytes => some (.bytes false [])
  | .bytearray => some (.bytes true [])
  | .list => some (.list [])
  | .tuple => some (.tuple [])
  | .deque => some (.sequence .deque [])
  | .set => some (.set false [])
  | .frozenset => some (.set true [])
  | .dict => some (.dict [])
  | .orderedDict => some (.mapping .ordered [])
  | _ => none

def convert (c : BuiltinClass) (v : Value) : Except Fault Value :=
  match c, v with
  | .bool, v => .ok (.bool v.truthy)
  | .int, v => v.toWhole.map .int
  | .str, v => .ok (.text v.str)
  | .list, v => v.iterate.map .list
  | .tuple, v => v.iterate.map .tuple
  | .deque, v => v.iterate.map (.sequence .deque)
  | .set, v => do return .set false (← Value.toMembers (← v.iterate))
  | .frozenset, v => do return .set true (← Value.toMembers (← v.iterate))
  | .dict, v => v.toMapping.map .dict
  | .orderedDict, v => v.toMapping.map (.mapping .ordered)
  | c, v => .error (.raised "TypeError" ("cannot convert '" ++ v.fullName ++ "' object to " ++ c.name))

def construct (c : BuiltinClass) : List Value → Except Fault Value
  | [] => match c.emptyValue? with
    | some v => .ok v
    | none => .error (.missingArguments c.name ["value"])
  | [v] => c.convert v
  | args => .error (.extraArguments c.name 1 args.length)

end BuiltinClass
end Conform
