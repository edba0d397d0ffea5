import Conform.Constraint.Basic
import Conform.Path

/-!
Compiled schemas. A schema has fields in order, each with a node that says what its value must be, and
checks of the value as a whole. A node is a scalar, a wrapper around another node, a structure with a
schema of its own, or a choice of variants; every level has its own rules.
-/

namespace Conform

/-- The levels that contain another level. -/
inductive Wrapper where
  | optional | sequence | mapping
  deriving Inhabited, Repr, DecidableEq

def Wrapper.kind : Wrapper → FieldKind
  | .optional => .optional | .sequence => .sequence | .mapping => .mapping

mutual

/-- One compiled level of a field. -/
inductive Node where
  /-- A leaf, of a class when `type` is one. -/
  | scalar (rules : List BoundRule) (type : Value)
  /-- An optional value, a sequence of elements, or a mapping of keys to values. -/
  | wrapper (w : Wrapper) (rules : List BoundRule) (inner keys : Option Node)
  /-- A structure validated by the schema of its target. -/
  | nested (rules : List BoundRule) (target : Target)
  /-- One of several variants; `tag` says how the active one is found. -/
  | variants (rules : List BoundRule) (cases : List (Value × Option Node)) (tag : Value)

/-- What a structure is validated by: a schema, or a class that carries one when it is needed. -/
inductive Target where
  | schema (s : Schema)
  | value (v : Value)

/-- The schema of one type of structure. Its serial number is its identity. -/
inductive Schema where
  | mk (serial : Nat) (name : Value) (fields : List (Value × Node)) (checks : List BoundRule)
      (targetType description : Value)

end

instance : Inhabited Node := ⟨.scalar [] .absent⟩
instance : Inhabited Target := ⟨.value .absent⟩
instance : Inhabited Schema := ⟨.mk 0 .absent [] [] .absent .absent⟩

namespace Node

/-- The kind of values that a node describes. -/
def kind : Node → FieldKind
  | .scalar .. => .scalar
  | .wrapper w .. => w.kind
  | .nested .. => .nested
  | .variants .. => .enum

/-- The rules of a node's own level. -/
def rules : Node → List BoundRule
  | .scalar rules _ | .wrapper _ rules _ _ | .nested rules _ | .variants rules _ _ => rules

end Node

/-- A field's name and node. -/
structure FieldSpec where
  name : Value
  node : Node
  deriving Inhabited

/-- The step into a field: a position when its name is a whole number, else a field. -/
def FieldSpec.segmentOf (name : Value) : Segment :=
  match name.asInt? with
  | some _ => ⟨.index, name⟩
  | none => .field name

namespace Schema

def serial : Schema → Nat
  | .mk n .. => n

def name : Schema → Value
  | .mk _ n .. => n

/-- The fields of a schema in order, by name and node. -/
def fields : Schema → List (Value × Node)
  | .mk _ _ fs .. => fs

/-- The rules for the value as a whole. -/
def checks : Schema → List BoundRule
  | .mk _ _ _ cs .. => cs

/-- The class that a schema was declared for, if any. -/
def targetType : Schema → Value
  | .mk _ _ _ _ t _ => t

/-- The description of a schema, if any. -/
def description : Schema → Value
  | .mk _ _ _ _ _ d => d

def fieldNames (s : Schema) : List Value := s.fields.map Prod.fst

/-- The first field whose name equals a value. -/
def getField? (s : Schema) (name : Value) : Option FieldSpec :=
  (s.fields.find? fun (n, _) => n.eq name).map fun (n, node) => ⟨n, node⟩

/-- The text of a schema: its name and the names of its fields. -/
def text (s : Schema) : String :=
  "Schema(" ++ s.name.repr ++ ", fields=" ++ (Value.list s.fieldNames).repr ++ ")"

end Schema

namespace Target

/-- The name that a target goes by in descriptions: an attribute `name`, if it has one. -/
def nameAttribute? : Target → Option Value
  | .schema s => some s.name
  | .value v => v.attribute? "name"

/-- How a target is shown: a class by its name, all else by how it is built. -/
def label : Target → String
  | .schema s => s.text
  | .value v => v.declaredName?.getD v.repr

/-- Whether there is no target. -/
def isAbsent : Target → Bool
  | .value .absent => true
  | _ => false

end Target
end Conform
