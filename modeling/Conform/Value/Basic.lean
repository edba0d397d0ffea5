import Conform.Number.Decimal
import Conform.Number.Complex
import Conform.Calendar

/-!
The values that are validated. They are typed at run time: numbers of several kinds, text, dates,
collections, mappings, members of enumerations, objects with attributes, classes, and functions known
by name. Whatever a value holds is part of it, so looking into a value gives a shallower one
(`Value.depth`); functions, and classes that refer to schemas, are held by name or serial number, and
what stands behind them is looked up elsewhere.
-/

namespace Conform

/-- A function known by name: the name that it reports, if any, its description, and the name of its
class. Two functions are equal when their names are. -/
structure FunctionRef where
  name : String
  label : Option String
  doc : String
  className : String
  deriving Repr, DecidableEq

/-- What the members of an enumeration are besides members. -/
inductive MemberBase where
  | plain
  | int
  | text
  deriving Repr, DecidableEq

/-- An enumeration, by name. -/
structure EnumRef where
  name : String
  base : MemberBase
  deriving Repr, DecidableEq

/-- The classes that every program has. -/
inductive BuiltinClass where
  | object | noneType | bool | int | float | complex | str | bytes | bytearray | list | tuple | dict
  | orderedDict | set | frozenset | deque | range | decimal | fraction | date | datetime | pattern
  | readOnlyDict | bag
  deriving Repr, DecidableEq

/-- A class that a program declares. Its serial number is its identity; `ancestors` are the serial
numbers of the declared classes above it. -/
structure DeclaredClass where
  serial : Nat
  name : String
  qualifiedName : String
  ancestors : List Nat
  /-- For a class whose instances are compared and shown by their fields, the names of the fields. -/
  fields : Option (List String)
  deriving Repr, DecidableEq

/-- The engine's own kinds of objects, as far as values can hold them. -/
inductive RecordClass where
  | segment | violation | violations | report | constraint | rule | boundRule | shape | node
  | fieldSpec | schema | declarations | fieldDefault | table | builder | factory | recorder
  | exception (className : String)
  | module
  deriving Repr, DecidableEq

/-- A class, or the marker that stands for any class. -/
inductive ClassRef where
  | builtin (c : BuiltinClass)
  | any
  | enumeration (e : EnumRef)
  | declared (c : DeclaredClass)
  deriving Repr, DecidableEq

/-- One of the engine's own objects seen as a value: its class, its identity and its texts. -/
structure RecordHead where
  cls : RecordClass
  serial : Nat
  repr : String
  text : String
  deriving Repr, DecidableEq

/-- Options of a regular expression. -/
structure PatternFlags where
  ascii : Bool := false
  ignoreCase : Bool := false
  multiline : Bool := false
  dotAll : Bool := false
  verbose : Bool := false
  deriving Repr, DecidableEq

/-- Collections in a fixed order. -/
inductive SequenceKind where
  | list | tuple | deque
  deriving Repr, DecidableEq

/-- Mappings: plain ones, ones whose order matters to equality, and read-only views. -/
inductive MappingKind where
  | plain | ordered | view
  deriving Repr, DecidableEq

/-- A value. -/
inductive Value where
  | absent
  | bool (b : Bool)
  | int (n : Int)
  | float (x : Binary64)
  | complex (z : Complex)
  | decimal (d : Decimal)
  | fraction (num : Int) (den : Nat)
  | date (d : Date)
  | moment (m : Moment)
  | text (s : String)
  | bytes (mutable : Bool) (bs : List UInt8)
  | range (start stop step : Int)
  | pattern (source : String) (flags : PatternFlags)
  | sequence (kind : SequenceKind) (items : List Value)
  | bag (serial : Nat) (items : List Value)
  | set (frozen : Bool) (items : List Value)
  | mapping (kind : MappingKind) (entries : List (Value × Value))
  | member (cls : EnumRef) (name : String) (payload : Value)
  | function (f : FunctionRef)
  | cls (c : ClassRef) (attributes : List (String × Value))
  | object (c : DeclaredClass) (serial : Nat) (own inherited : List (String × Value))
  | record (r : RecordHead) (attributes : List (String × Value))
  deriving Inhabited, Repr

/-- Named details in the order in which they were added. -/
abbrev Context := List (String × Value)

namespace Value

/-- A list. -/
@[match_pattern] abbrev list (items : List Value) : Value := .sequence .list items

/-- A tuple. -/
@[match_pattern] abbrev tuple (items : List Value) : Value := .sequence .tuple items

/-- A plain mapping. -/
@[match_pattern] abbrev dict (entries : List (Value × Value)) : Value := .mapping .plain entries

/-- A plain mapping with text keys. -/
def ofContext (c : Context) : Value := .dict (c.map fun (k, v) => (.text k, v))

/-! ### Depth -/

mutual

/-- How deep a value is: nothing has depth zero, a scalar one, and what holds values is deeper than each
of them. -/
def depth : Value → Nat
  | .absent => 0
  | .bool _ | .int _ | .float _ | .complex _ | .decimal _ | .fraction .. | .date _ | .moment _
  | .text _ | .pattern .. | .function _ => 1
  | .bytes .. | .range .. => 2
  | .sequence _ items | .bag _ items | .set _ items => depthItems items + 1
  | .mapping _ entries => depthEntries entries + 1
  | .member _ _ payload => payload.depth + 2
  | .cls _ attributes => depthAttributes attributes + 1
  | .object _ _ own inherited => max (depthAttributes own) (depthAttributes inherited) + 1
  | .record _ attributes => depthAttributes attributes + 1

def depthItems : List Value → Nat
  | [] => 0
  | v :: rest => max v.depth (depthItems rest)

/-- The depth of the deepest key or value. -/
def depthEntries : List (Value × Value) → Nat
  | [] => 0
  | (k, v) :: rest => max (max k.depth v.depth) (depthEntries rest)

/-- The depth of the deepest attribute. -/
def depthAttributes : List (String × Value) → Nat
  | [] => 0
  | (_, v) :: rest => max v.depth (depthAttributes rest)

end

theorem depth_le_depthItems {v : Value} : ∀ {items : List Value}, v ∈ items → v.depth ≤ depthItems items
  | w :: rest, h => by
    unfold depthItems
    rcases List.mem_cons.mp h with rfl | h
    · omega
    · have := depth_le_depthItems h; omega

theorem depth_le_depthEntries {k v : Value} :
    ∀ {entries : List (Value × Value)}, (k, v) ∈ entries →
      k.depth ≤ depthEntries entries ∧ v.depth ≤ depthEntries entries
  | (k', v') :: rest, h => by
    unfold depthEntries
    rcases List.mem_cons.mp h with h | h
    · obtain ⟨rfl, rfl⟩ := Prod.mk.inj h; omega
    · have := depth_le_depthEntries h; omega

theorem depth_le_depthAttributes {n : String} {v : Value} :
    ∀ {attributes : List (String × Value)}, (n, v) ∈ attributes → v.depth ≤ depthAttributes attributes
  | (n', v') :: rest, h => by
    unfold depthAttributes
    rcases List.mem_cons.mp h with h | h
    · obtain ⟨rfl, rfl⟩ := Prod.mk.inj h; omega
    · have := depth_le_depthAttributes h; omega

/-- Only the absent value has depth zero. -/
theorem depth_pos {v : Value} (h : v ≠ .absent) : 0 < v.depth := by
  cases v <;> simp_all [depth]

end Value
end Conform
