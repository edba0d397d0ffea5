import Conform.Builder.Compile

/-!
Building a schema, one declaration at a time. Every declaration is checked when it is made; a refused one
leaves the builder as it was. The table of constraint functions is kept beside the builder, which
shares it with whoever made it, and is frozen when a schema is built.
-/

namespace Conform

/-- A schema in the making. -/
structure SchemaBuilder where
  name : Value
  targetType : Value := .absent
  description : Value := .absent
  resolver : Option ParamResolver := none
  fields : List (Value × Node) := []
  checks : List BoundRule := []

namespace SchemaBuilder

/-- What the shapes of a builder are compiled with. -/
def workshop (b : SchemaBuilder) (h : Host) (t : FunctionTable) : Workshop := ⟨h, t, b.targetType, b.resolver⟩

/-- Turns a fault about a spelling into a refusal at a place. -/
def malformed {α : Type} (site : Site) (e : Except Fault α) : Except Fault α :=
  e.mapError fun f => .refused (.malformed f.message site)

def placeRule (site : Site) (w : Workshop) (shape : Shape) (rule : Rule) :
    Except Fault Shape := do
  let f ← w.lookUp rule.name site
  match shape.place f.appliesTo rule with
  | some s => return s
  | none =>
    let described ← shape.describe
    throw (.refused (.unplaceable rule.name described shape.kind.name site))

/-- Declares a field, with rules besides those of its shape. -/
def field (b : SchemaBuilder) (h : Host) (t : FunctionTable) (name : Value) (shape : ShapeSpelling)
    (rules : List RuleSpelling) (named : List (String × Value)) : Except Fault SchemaBuilder := do
  let site : Site := { schema := b.name, field := some name }
  if b.fields.any fun (n, _) => n.eq name then throw (.refused (.duplicateField b.name name))
  let shape ← malformed site (Shape.ofSpelling shape)
  let rules ← malformed site (Rule.ofSpellings rules named)
  let shape ← rules.foldlM (placeRule site (b.workshop h t)) shape
  let node ← (b.workshop h t).compile site shape
  return { b with fields := b.fields ++ [(name, node)] }

/-- Declares rules for the value as a whole. -/
def check (b : SchemaBuilder) (h : Host) (t : FunctionTable) (rules : List RuleSpelling)
    (named : List (String × Value)) : Except Fault SchemaBuilder := do
  let site : Site := { schema := b.name }
  let rules ← malformed site (Rule.ofSpellings rules named)
  let checks ← (b.workshop h t).bindRules (Shape.nested (.value b.targetType) rules) site b.checks
  return { b with checks }

def withDescription (b : SchemaBuilder) (description : Value) : SchemaBuilder := { b with description }

/-- Compiles a shape that stands alone. -/
def compileShape (b : SchemaBuilder) (h : Host) (t : FunctionTable) (shape : ShapeSpelling) :
    Except Fault Node := do
  let site : Site := { schema := b.name }
  (b.workshop h t).compile site (← malformed site (Shape.ofSpelling shape))

/-- The schema with what was declared so far. -/
def build (b : SchemaBuilder) (serial : Nat) : Schema :=
  .mk serial b.name b.fields b.checks b.targetType b.description

end SchemaBuilder
end Conform
