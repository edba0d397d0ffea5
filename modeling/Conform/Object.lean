import Conform.Shape
import Conform.Violation

/-!
The engine's own objects seen as values: what they are called, how they read, and their attributes. A
function of the program receives them in this form, and so does whatever compares or shows them.
-/

namespace Conform

namespace Object

/-- The enumeration of kinds of values. -/
def fieldKinds : EnumRef := ⟨"FieldKind", .text⟩

/-- The enumeration of kinds of steps. -/
def segmentKinds : EnumRef := ⟨"SegmentKind", .text⟩

def shown (cls : RecordClass) (text : Option String) (attributes : List (String × Value)) : Value :=
  let repr := cls.name ++ "(" ++ ", ".intercalate (attributes.map fun (n, v) => n ++ "=" ++ v.repr) ++ ")"
  .record ⟨cls, 0, repr, text.getD repr⟩ attributes

def optionalText (s : Option String) : Value :=
  match s with
  | some s => .text s
  | none => .absent

end Object

open Object

/-- An exception as a value: its details are its context, and some have attributes of their own. -/
def Object.exception (kind : String) (message context : Value) (more : List (String × Value)) : Value :=
  .record ⟨.exception kind, 0, kind ++ "(" ++ message.repr ++ ")", message.str⟩
    ([("message", message), ("context", context), ("details", context)] ++ more)

/-- What a refusal shows besides its message and its context. -/
def Refusal.attributes : Refusal → List (String × Value)
  | .unknownConstraint name available _ => [("name", name), ("available", .list (available.map .text))]
  | .duplicateField _ field => [("field", field)]
  | _ => []

def Refusal.toObject (r : Refusal) : Value :=
  Object.exception r.kind.name (.text r.message) (.ofContext r.context) r.attributes

def FieldKind.toObject (k : FieldKind) : Value := .member fieldKinds k.name.toUpper (.text k.name)

def SegmentKind.toObject (k : SegmentKind) : Value := .member segmentKinds k.name.toUpper (.text k.name)

def Segment.toObject (s : Segment) : Value :=
  shown .segment (some s.text) [("kind", s.kind.toObject), ("value", s.value)]

def Path.toObject (p : Path) : Value := .tuple (p.map Segment.toObject)

def Violation.toObject (v : Violation) : Value :=
  shown .violation (some v.text)
    [("kind", .text v.kind), ("context", .mapping .view v.details), ("path", Path.toObject v.path)]

def Violation.listObject (vs : List Violation) : Value :=
  let items := vs.map Violation.toObject
  .record ⟨.violations, 0, "ErrorCollection(" ++ (Value.list items).repr ++ ")", Violation.lines vs⟩
    (items.map fun v => ("", v))

def Report.toObject (r : Report) : Value :=
  shown .report none
    [("valid", .bool r.valid), ("value", r.value), ("errors", Violation.listObject r.violations)]

def BuiltinCheck.functionName : BuiltinCheck → String
  | .min => "min_value" | .max => "max_value" | .equal => "equal" | .optionMin => "option_min"
  | .optionMax => "option_max" | .minLen => "min_len" | .maxLen => "max_len" | .predicate => "predicate"
  | .pattern => "pattern" | .oneOf => "one_of"

/-- What a constraint function runs, as a value. -/
def Check.toObject : Check → Value
  | .builtin b => .function ⟨b.functionName, some b.functionName, "", "function"⟩
  | .custom f => f

def ParameterCheck.toObject : ParameterCheck → Value
  | .custom f => f
  | .ordinal => named "ordinal" | .equal => named "equal" | .length => named "length"
  | .predicate => named "predicate" | .pattern => named "pattern" | .oneOf => named "one_of"
where
  named (n : String) : Value := .function ⟨"_check_" ++ n, some ("_check_" ++ n), "", "function"⟩

def ConstraintFunction.toObject (c : ConstraintFunction) : Value :=
  shown .constraint none
    [("name", .text c.name), ("func", c.check.toObject),
      ("applies_to", .set true (c.appliesTo.map FieldKind.toObject)),
      ("check_param", (c.checkParam.map ParameterCheck.toObject).getD .absent),
      ("bound", optionalText c.bound), ("group", optionalText c.group), ("exclusive", .bool c.exclusive),
      ("callable_param", .bool c.callableParam), ("description", .text c.description)]

def Rule.toObject (r : Rule) : Value :=
  shown .rule (some r.text) [("name", .text r.name), ("param", r.param)]

def BoundRule.toObject (r : BoundRule) : Value :=
  shown .boundRule (some r.text) [("function", r.function.toObject), ("param", r.param)]

namespace Object

/-- The attributes that nodes and shapes show, in order. -/
def levelAttributes (kind : FieldKind) (rules : List Value) (type inner keys target cases tag : Value) :
    List (String × Value) :=
  [("kind", kind.toObject), ("rules", .tuple rules), ("python_type", type), ("inner", inner), ("keys", keys),
    ("target", target), ("variants", cases), ("tag", tag)]

end Object

mutual

def Node.toObject : Node → Value
  | .scalar rules type => shown .node none
      (levelAttributes .scalar (rules.map BoundRule.toObject) type .absent .absent .absent (.dict []) .absent)
  | .wrapper w rules inner keys => shown .node none
      (levelAttributes w.kind (rules.map BoundRule.toObject) .absent (Node.optionObject inner)
        (Node.optionObject keys) .absent (.dict []) .absent)
  | .nested rules target => shown .node none
      (levelAttributes .nested (rules.map BoundRule.toObject) .absent .absent .absent target.toObject (.dict [])
        .absent)
  | .variants rules cases tag => shown .node none
      (levelAttributes .enum (rules.map BoundRule.toObject) .absent .absent .absent .absent
        (.dict (Node.casesObject cases)) tag)

/-- A node that may be missing, as a value. -/
def Node.optionObject : Option Node → Value
  | none => .absent
  | some n => n.toObject

/-- The cases of a choice as entries. -/
def Node.casesObject : List (Value × Option Node) → List (Value × Value)
  | [] => []
  | (name, n) :: rest => (name, Node.optionObject n) :: Node.casesObject rest

def Target.toObject : Target → Value
  | .schema s => s.toObject
  | .value v => v

def Schema.toObject : Schema → Value
  | .mk serial name fields checks targetType description =>
    let s := Schema.mk serial name fields checks targetType description
    .record ⟨.schema, serial, s.text, s.text⟩
      [("name", name), ("fields", .tuple (Schema.fieldObjects fields)),
        ("checks", .tuple (checks.map BoundRule.toObject)), ("target_type", targetType),
        ("description", description), ("field_names", .list (fields.map Prod.fst))]

def Schema.fieldObjects : List (Value × Node) → List Value
  | [] => []
  | (name, node) :: rest =>
    shown .fieldSpec none [("name", name), ("node", node.toObject)] :: Schema.fieldObjects rest

end

def FieldSpec.toObject (f : FieldSpec) : Value :=
  shown .fieldSpec none [("name", f.name), ("node", f.node.toObject)]

mutual

def Shape.toObject : Shape → Value
  | .mk kind rules type inner keys target cases tag => shown .shape none
      (levelAttributes kind (rules.map Rule.toObject) type (Shape.optionObject inner) (Shape.optionObject keys)
        target.toObject (Shape.casesObject cases) tag)

/-- A shape that may be missing, as a value. -/
def Shape.optionObject : Option Shape → Value
  | none => .absent
  | some s => s.toObject

/-- The cases of a choice, if it has any, as a value. -/
def Shape.casesObject : Option (List (Value × Payload)) → Value
  | none => .absent
  | some cases => .dict (Shape.caseEntries cases)

/-- The cases of a choice as entries. -/
def Shape.caseEntries : List (Value × Payload) → List (Value × Value)
  | [] => []
  | (name, p) :: rest => (name, p.toObject) :: Shape.caseEntries rest

/-- What a variant carries, as a value. -/
def Payload.toObject : Payload → Value
  | .shape s => s.toObject
  | .target t => t.toObject

end

end Conform
