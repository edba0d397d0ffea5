import Conform.Constraint.Builtin
import Conform.Object

/-!
Checks of declared parameters. A check looks at the parameter and at the shape that the rule stands on,
and says what is wrong; nothing is wrong when it says nothing.
-/

namespace Conform

/-- The class of the values that a rule on a shape sees, when the shape is a scalar or an optional one. -/
def Shape.declaredType : Shape → Value
  | .mk kind _ type inner _ _ _ _ =>
    match kind with
    | .scalar => type
    | .optional => match inner with
      | some s => s.declaredType
      | none => .absent
    | _ => .absent

namespace ParameterCheck

/-- The class that a value is, if it is one. -/
def requireClass (v : Value) : Except Fault ClassRef :=
  match v with
  | .cls c _ => .ok c
  | _ => .error .notAClass

/-- Whether a parameter suits values of a class: a truth value suits truth values, any real number suits
numbers of every class, and else the parameter is of the class itself. -/
def suits (param type : Value) : Except Fault Bool :=
  match type with
  | .absent => .ok true
  | type => do
    let c ← requireClass type
    if c = .builtin .bool then return param.isBuiltin .bool
    if c.isNumeric then return param.isRealNumber
    match param.isInstance? c with
    | some b => return b
    | none => .error .anyInstance

/-- A bound must be present, suit the declared class, and have an order. -/
def checkOrdinal (param : Value) (shape : Shape) : Except Fault (Option String) := do
  if param.isAbsent then return some "bound must not be None"
  let type := shape.declaredType
  if !(← suits param type) then
    return some ("bound " ++ param.repr ++ " is not comparable with " ++ type.typeLabel)
  match param.lt param with
  | .ok _ => return none
  | .error f =>
    if f.isTypeFault then
      return some ("bound " ++ param.repr ++ " of type " ++ param.className ++ " is not orderable")
    else throw f

/-- An expected value must suit the declared class. -/
def checkEqual (param : Value) (shape : Shape) : Except Fault (Option String) := do
  let type := shape.declaredType
  if ← suits param type then return none
  return some ("expected value " ++ param.repr ++ " does not match " ++ type.typeLabel)

/-- Whether instances of a class, or the value itself when it is no class, have a length. -/
def hasLength (type : Value) : Bool :=
  match type with
  | .cls c _ => c.isSized
  | v => v.length?.isSome

/-- A length must be a natural number, and values of the declared class must have one. -/
def checkLength (param : Value) (shape : Shape) : Except Fault (Option String) := do
  let natural := match param.asInt? with
    | some n => 0 ≤ n && !param.isBuiltin .bool
    | none => false
  if !natural then return some ("length bound must be a non-negative int, got " ++ param.repr)
  let type := shape.declaredType
  if shape.kind = .scalar && !type.isAbsent && !hasLength type then
    return some ("values of type " ++ (← type.requireName) ++ " have no length")
  return none

/-- A predicate is something to call, or a pair of it and a message. -/
def checkPredicate (param : Value) : Option String :=
  let accepted := param.isCallable || match param with
    | .tuple [f, message] => f.isCallable && message.asText?.isSome
    | _ => false
  if accepted then none else some "predicate must be a callable or a (callable, message) pair"

/-- Whether texts belong to a class. -/
def isTextClass (type : Value) : Except Fault Bool :=
  match type with
  | .absent => .ok true
  | type => (requireClass type).map ClassRef.isTextual

/-- A pattern is a well-formed regular expression, and the declared class is one of texts. -/
def checkPattern (param : Value) (shape : Shape) : Except Fault (Option String) := do
  let problem : Option String ← match param with
    | .pattern .. => pure none
    | param => match param.asText? with
      | none => pure (some "pattern must be a string or a compiled regular expression")
      | some source => match Regex.compile source.toList {} with
        | .ok _ => pure none
        | .error e =>
          if e.crash?.isSome then throw (Check.regexFault source e)
          pure (some ("invalid regular expression " ++ param.repr ++ ": " ++ e.message source.toList))
  if problem.isSome then return problem
  let type := shape.declaredType
  if ← isTextClass type then return none
  return some ("pattern cannot apply to values of type " ++ type.typeLabel)

/-- The allowed values are a collection that is not empty and no text. -/
def checkOneOf (param : Value) : Option String :=
  if param.asText?.isSome || param.isBuiltin .bytes || !param.isCollection || !param.truthy then
    some "one_of needs a non-empty collection of allowed values"
  else none

/-- What a check of the program says: whatever it gives that counts as true is a problem. -/
def problemOf : Outcome → Option String
  | .value v => if v.truthy then some v.str else none
  | .report r => if r.valid then some (Report.toObject r).str else none

/-- What a check of the engine says, as an outcome. -/
def saying (problem : Option String) : Outcome :=
  .value (match problem with
    | some s => .text s
    | none => .absent)

def answer (h : Host) (c : ParameterCheck) (param : Value) (shape : Shape) : Except Fault Outcome :=
  match c with
  | .ordinal => (checkOrdinal param shape).map saying
  | .equal => (checkEqual param shape).map saying
  | .length => (checkLength param shape).map saying
  | .predicate => .ok (saying (checkPredicate param))
  | .pattern => (checkPattern param shape).map saying
  | .oneOf => .ok (saying (checkOneOf param))
  | .custom f => h.callValue f [param, shape.toObject]

def run (h : Host) (c : ParameterCheck) (param : Value) (shape : Shape) : Except Fault (Option String) :=
  (c.answer h param shape).map problemOf

end ParameterCheck
end Conform
