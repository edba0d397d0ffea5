import Conform.Builder.Conflict
import Conform.Builder.Placement
import Conform.Constraint.Parameter
import Conform.Constraint.Table
import Conform.Import

/-!
Compiling shapes into nodes. Every rule is looked up in the function table, must apply to the kind of its
level, and has its parameter resolved and checked; rules of one level must not conflict; scalar types
must be classes, and targets must have a schema or be the class that is being described.
-/

namespace Conform

/-- What replaces a declared parameter before it is checked. -/
inductive ParamResolver where
  /-- Import paths name functions. -/
  | importPaths
  /-- A function of the program. -/
  | custom (f : Value)

/-- What a shape is compiled with. -/
structure Workshop where
  host : Host
  table : FunctionTable
  targetType : Value
  resolver : Option ParamResolver

namespace Workshop

def lookUp (w : Workshop) (name : String) (site : Site) : Except Fault ConstraintFunction :=
  match w.table.find? name with
  | some f => .ok f
  | none => .error (.refused (.unknownConstraint (.text name) w.table.names site.context))

/-- The parameter that a rule is checked with. -/
def resolve (w : Workshop) (f : ConstraintFunction) (param : Value) : Except Fault Value :=
  match w.resolver with
  | none => .ok param
  | some .importPaths => resolveParam w.host f.callableParam param
  | some (.custom g) => (w.host.callValue g [f.toObject, param]).map fun
    | .value v => v
    | .report r => r.toObject

/-- Binds one rule of a level. -/
def bindRule (w : Workshop) (shape : Shape) (site : Site) (rule : Rule) : Except Fault BoundRule := do
  let f ← w.lookUp rule.name site
  if !f.appliesTo.contains shape.kind then
    throw (.refused (.inapplicable rule.name shape.kind.name site))
  let param ← w.resolve f rule.param
  match f.checkParam with
  | none => return ⟨f, param⟩
  | some check => match ← check.run w.host param shape with
    | none => return ⟨f, param⟩
    | some problem => throw (.refused (.badParameter rule.name problem param site))

/-- Binds the rules of a level, after those that it has. -/
def bindRules (w : Workshop) (shape : Shape) (site : Site) (existing : List BoundRule) :
    Except Fault (List BoundRule) := do
  let bound ← shape.rules.mapM (w.bindRule shape site)
  let rules := existing ++ bound
  BoundRule.checkConflicts site [] rules
  return rules

/-- Whether a value is the class that is being described. -/
def isTargetType (w : Workshop) (v : Value) : Bool :=
  match v, w.targetType with
  | .cls c _, .cls d _ => c == d
  | _, _ => false

/-- Refuses a target without a schema. -/
def checkTarget (w : Workshop) (t : Target) (site : Site) : Except Fault Unit :=
  match t with
  | .schema _ => .ok ()
  | .value .absent => .error (.refused (.noTarget site))
  | .value v =>
    let isClass := match v with
      | .cls .. => true
      | _ => false
    if w.isTargetType v || (isClass && (w.host.schemaOf? v).isSome) then .ok ()
    else .error (.refused (.targetWithoutSchema t.label site))

/-- Whether a class stands for scalars of itself rather than for a structure. -/
def isScalarClass (w : Workshop) : Target → Bool
  | .value (.cls c attributes) =>
    (w.host.schemaOf? (.cls c attributes)).isNone && !w.isTargetType (.cls c attributes)
  | _ => false

/-- Refuses a scalar type that is no class. -/
def checkScalarType (type : Value) (site : Site) : Except Fault Unit :=
  match type with
  | .absent | .cls .. => .ok ()
  | type => .error (.refused (.scalarType type site))

mutual

def compile (w : Workshop) (site : Site) : Shape → Except Fault Node
  | .mk kind declared type inner keys target cases tag => do
    let rules ← w.bindRules (.mk kind declared type inner keys target cases tag) site []
    match kind with
    | .scalar =>
      checkScalarType type site
      return .scalar rules type
    | .optional =>
      return .wrapper .optional rules (some (← w.compileInner site inner)) (← w.compileKeys site keys)
    | .sequence =>
      return .wrapper .sequence rules (some (← w.compileInner site inner)) (← w.compileKeys site keys)
    | .mapping =>
      return .wrapper .mapping rules (some (← w.compileInner site inner)) (← w.compileKeys site keys)
    | .nested =>
      w.checkTarget target site
      return .nested rules target
    | .enum =>
      match cases with
      | none | some [] => throw (.refused (.noVariants site))
      | some cases => return .variants rules (← w.compileCases site cases []) tag

/-- Compiles the shape inside a wrapper; a missing one admits any scalar. -/
def compileInner (w : Workshop) (site : Site) : Option Shape → Except Fault Node
  | none => .ok (.scalar [] .absent)
  | some s => w.compile site s

/-- Compiles the shape of keys, if there is one. -/
def compileKeys (w : Workshop) (site : Site) : Option Shape → Except Fault (Option Node)
  | none => .ok none
  | some s => do return some (← w.compile site s)

/-- Compiles the cases of a choice in order, after those that were compiled; cases of one name share a
place. -/
def compileCases (w : Workshop) (site : Site) : List (Value × Payload) → List (Value × Option Node) →
    Except Fault (List (Value × Option Node))
  | [], done => .ok done
  | (name, payload) :: rest, done => do
    let node ← w.compilePayload { site with variant := some name } payload
    w.compileCases site rest (Value.assign (.text name.str) node done)

/-- Compiles what a variant carries. -/
def compilePayload (w : Workshop) (site : Site) : Payload → Except Fault (Option Node)
  | .shape s => do return some (← w.compile site s)
  | .target (.value .absent) => .ok none
  | .target t =>
    if w.isScalarClass t then
      match t with
      | .value v => .ok (some (.scalar [] v))
      | .schema _ => .ok none
    else do
      w.checkTarget t site
      return some (.nested [] t)

end

end Workshop
end Conform
