import Conform.Builder.Basic
import Conform.Declaration.ClassModel
import Conform.Declaration.Inference
import Conform.Text.Classes

/-!
The schema of a declared class. Each of its hints, and each of the classes above, gives a field: with an
explicit shape if one is declared, else with the shape that the hint suggests, and then only if there is
something to validate. The declarations of a field are those beside its hint, then those of its value.
-/

namespace Conform

/-- What may be said about the schema of a class. -/
structure SchemaOptions where
  name : Value := .absent
  checks : Value := .absent

/-- The spellings of the checks that are given: a mapping is one of them, and anything else is iterated over. -/
def SchemaOptions.spellings (o : SchemaOptions) : Except Fault (List RuleSpelling) :=
  if o.checks.isMapping then .ok [.value o.checks]
  else match o.checks.iterate? with
    | some items => .ok (items.map .value)
    | none => .error (.notArguments "dataknobs_validation.compiler.SchemaBuilder.check" o.checks.fullName)

namespace ClassModel

/-- The hints of a class in order, those of the classes above first; a hint that is given again keeps its
place. -/
def allHints (m : ClassModel) : List (String × Hint) :=
  ((m :: m.ancestors).reverse.flatMap ClassModel.hints).foldl put []
where
  put : List (String × Hint) → String × Hint → List (String × Hint)
    | [], entry => [entry]
    | (n, h) :: rest, (n', h') => if n = n' then (n, h') :: rest else (n, h) :: put rest (n', h')

/-- The declarations that a class gives a field besides those of its hint. -/
def declarationsOf (m : ClassModel) (name : String) : Option Declarations :=
  let field := m.fields?.bind fun fs => fs.find? fun f => f.name = name && f.role = .plain
  match field with
  | some f => f.declarations
  | none => match m.attribute? name with
    | some (.constrained f) => some f.declarations
    | _ => none

/-- The first line of a description, unless it only repeats how the class is constructed. -/
def summary (name : String) (doc : Option String) : Value :=
  let doc := trimBlanks (doc.getD "")
  if doc.isEmpty || (name ++ "(").toList.isPrefixOf doc.toList then .absent
  else .text (String.ofList (doc.toList.takeWhile (· ≠ '\n')))

/-- A field that a hint and the declarations beside it give. -/
structure HintedField where
  name : String
  shape : Shape
  rules : List Rule

/-- Whether a field of a shape is worth validating. -/
def isWorthWalking (shape : Shape) (rules : List Rule) : Bool :=
  !rules.isEmpty || shape.hasRules || shape.contains [.nested, .enum]

/-- The field of a hint, if there is anything to validate. -/
def hintedField (h : Host) (m : ClassModel) (name : String) (hint : Hint) : Option HintedField :=
  if roleOf hint ≠ .plain then none
  else
    let (base, notes) := match hint with
      | .annotated base notes => (base, notes)
      | hint => (hint, [])
    let declared := notes ++ (m.declarationsOf name).toList
    let rules := declared.flatMap Declarations.rules
    match (declared.filterMap Declarations.shape).getLast? with
    | some shape => some ⟨name, shape, rules⟩
    | none =>
      let shape := base.inferShape h (some (.declared m.ref))
      if isWorthWalking shape rules then some ⟨name, shape, rules⟩ else none

/-- The schema of a class. Names in its hints stand for the class itself or for what the scope says. -/
def schema (h : Host) (t : FunctionTable) (scope : String → Option Hint) (serial : Nat) (m : ClassModel)
    (o : SchemaOptions) : Except Fault Schema := do
  let self : Hint := .cls (.declared m.ref) m.classAttributes
  let hints ← m.allHints.mapM fun (n, hint) =>
    (hint.ofAnnotation fun s => if s = m.ref.name then some self else scope s).map fun hint => (n, hint)
  let builder : SchemaBuilder :=
    { name := if o.name.truthy then o.name else .text m.ref.name, targetType := m.toValue,
      description := summary m.ref.name m.doc }
  let fields := hints.filterMap fun (n, hint) => hintedField h m n hint
  let builder ← fields.foldlM (fun b f =>
    b.field h t (.text f.name) (.shape f.shape) (f.rules.map .rule) []) builder
  let builder ← if o.checks.truthy then builder.check h t (← o.spellings) [] else pure builder
  return builder.build serial

end ClassModel
end Conform
