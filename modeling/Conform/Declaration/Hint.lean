import Conform.Object

/-!
Hints: what a class says of the values of its fields, and what is declared beside a hint. A union names
each of its members once and holds no union itself; a hint with declarations holds no other such hint;
`Hint.normalize` brings every hint into that form, and `Hint.resolve` replaces names by the classes that
they stand for.
-/

namespace Conform

/-- What is declared beside a hint: rules and, if given, a shape instead of the one that the hint
suggests. -/
structure Declarations where
  rules : List Rule := []
  shape : Option Shape := none

def Declarations.toObject (d : Declarations) : Value :=
  Object.shown .declarations none
    [("rules", .tuple (d.rules.map Rule.toObject)), ("shape", Shape.optionObject d.shape)]

/-- What takes parameters in a hint. -/
inductive Origin where
  /-- A collection of elements of one hint. -/
  | elements (name : String)
  /-- A tuple whose positions have a hint each. -/
  | positions
  /-- A mapping of keys of one hint to values of another. -/
  | entries (name : String)
  /-- Anything else. -/
  | other (name : String)
  deriving Repr, DecidableEq

/-- A hint. -/
inductive Hint where
  /-- Nothing but the absent value. -/
  | nothing
  | cls (c : ClassRef) (attributes : List (String × Value))
  /-- A name for a class. -/
  | forward (name : String)
  | generic (origin : Origin) (args : List Hint)
  | union (members : List Hint)
  | annotated (base : Hint) (notes : List Declarations)
  | literal (values : List Value)
  /-- An attribute of the class rather than of its instances. -/
  | classVariable (h : Hint)
  /-- A parameter of construction that instances do not keep. -/
  | initVariable (h : Hint)

namespace Hint

def absentClass : Hint := .cls (.builtin .noneType) []

/-- What a name stands for in every hint: a class, or the absent value. -/
def global? (name : String) : Option Hint :=
  if name = "None" then some .nothing
  else (BuiltinClass.all.find? fun c => c.isGlobal && c.name == name).map fun c => .cls (.builtin c) []

def isAbsentClass : Hint → Bool
  | .cls c _ => c == .builtin .noneType
  | _ => false

def originKey : Origin → Value
  | .elements n => .tuple [.text "elements", .text n]
  | .positions => .text "positions"
  | .entries n => .tuple [.text "entries", .text n]
  | .other n => .tuple [.text "other", .text n]

mutual

/-- A value by which hints are told apart. -/
def key : Hint → Value
  | .nothing => .absent
  | .cls c _ => .cls c []
  | .forward n => .tuple [.text n]
  | .generic o args => .tuple [.text "generic", originKey o, .tuple (keys args)]
  | .union members => .tuple [.text "union", .set true (keys members)]
  | .annotated base notes => .tuple [.text "annotated", base.key, .tuple (notes.map Declarations.toObject)]
  | .literal values => .tuple [.text "literal", .tuple (values.map fun v => .text v.repr)]
  | .classVariable h => .tuple [.text "class", h.key]
  | .initVariable h => .tuple [.text "init", h.key]

/-- The values by which several hints are told apart. -/
def keys : List Hint → List Value
  | [] => []
  | h :: rest => h.key :: keys rest

end

/-- Whether two hints are the same. -/
def same (a b : Hint) : Bool := a.key.same b.key

/-- The members that a hint adds to a union; the absent value stands for its class. -/
def members : Hint → List Hint
  | .union ms => ms
  | .nothing => [absentClass]
  | h => [h]

/-- Hints without the repetitions, in the order of their first occurrence. -/
def distinct (hs : List Hint) : List Hint :=
  hs.foldl (fun seen h => if seen.any (same · h) then seen else seen ++ [h]) []

/-- The union of some hints: nested unions count by their members, each member counts once, and a single
member is its own union. -/
def unionOf (hs : List Hint) : Hint :=
  match distinct (hs.flatMap members) with
  | [h] => h
  | ms => .union ms

/-- A hint with declarations, which follow those that it has. -/
def annotate (base : Hint) (notes : List Declarations) : Hint :=
  match base with
  | .annotated b before => .annotated b (before ++ notes)
  | .nothing => .annotated absentClass notes
  | b => .annotated b notes

mutual

/-- A hint without nested unions, repeated members and nested declarations. -/
def normalize : Hint → Hint
  | .generic o args => .generic o (normalizeAll args)
  | .union hs => unionOf (normalizeAll hs)
  | .annotated base notes => annotate base.normalize notes
  | .classVariable h => .classVariable h.normalize
  | .nothing => .nothing
  | .cls c attributes => .cls c attributes
  | .forward n => .forward n
  | .literal values => .literal values
  | .initVariable h => .initVariable h

/-- Several hints in normal form. -/
def normalizeAll : List Hint → List Hint
  | [] => []
  | h :: rest => h.normalize :: normalizeAll rest

end

mutual

/-- A hint with the classes that its names stand for; a name that stands for none is a fault. -/
def resolve (scope : String → Option Hint) : Hint → Except Fault Hint
  | .forward n => match scope n with
    | some h => .ok h
    | none => .error (.undefinedName n)
  | .generic o args => (resolveAll scope args).map (.generic o)
  | .union hs => (resolveAll scope hs).map .union
  | .annotated base notes => (base.resolve scope).map fun b => .annotated b notes
  | .classVariable h => (h.resolve scope).map .classVariable
  | .nothing => .ok .nothing
  | .cls c attributes => .ok (.cls c attributes)
  | .literal values => .ok (.literal values)
  | .initVariable h => .ok (.initVariable h)

/-- Several hints with the classes that their names stand for. -/
def resolveAll (scope : String → Option Hint) : List Hint → Except Fault (List Hint)
  | [] => .ok []
  | h :: rest => do return (← h.resolve scope) :: (← resolveAll scope rest)

end

/-- The hint of a field as its class means it: names are resolved, and the absent value stands for its
class. -/
def ofAnnotation (scope : String → Option Hint) (h : Hint) : Except Fault Hint :=
  (h.resolve scope).map fun h => match h.normalize with
    | .nothing => absentClass
    | h => h

end Hint
end Conform
