import Conform.Rule

/-!
Constraint functions: what a name in a rule stands for. A function runs a check on a value with a
parameter, says which kinds of values it applies to, and may check parameters when they are declared.
-/

namespace Conform

/-- The checks that every table can start with. -/
inductive BuiltinCheck where
  | min | max | equal | optionMin | optionMax | minLen | maxLen | predicate | pattern | oneOf
  deriving Inhabited, Repr, DecidableEq

/-- What a constraint function runs: a check of the engine, or a function of the program. -/
inductive Check where
  | builtin (b : BuiltinCheck)
  | custom (f : Value)
  deriving Inhabited, Repr

/-- How a declared parameter is checked: by the engine, or by a function of the program. -/
inductive ParameterCheck where
  | ordinal | equal | length | predicate | pattern | oneOf
  | custom (f : Value)
  deriving Inhabited, Repr

/-- A named, parameterised check. Bounds of one `group` must not contradict each other, where `bound`
says on which side they stand; an `exclusive` function takes one parameter per field; a
`callableParam` can be named by an import path. -/
structure ConstraintFunction where
  name : String
  check : Check
  appliesTo : List FieldKind := FieldKind.present
  checkParam : Option ParameterCheck := none
  bound : Option String := none
  group : Option String := none
  exclusive : Bool := false
  callableParam : Bool := false
  description : String := ""
  deriving Inhabited, Repr

/-- A constraint function with the parameter of one rule. -/
structure BoundRule where
  function : ConstraintFunction
  param : Value
  deriving Inhabited, Repr

namespace BoundRule

def name (r : BoundRule) : String := r.function.name

def text (r : BoundRule) : String := r.name ++ "=" ++ r.param.repr

/-- The rule as a mapping of its name to its parameter; functions and tuples are shown as text. -/
def toValue (r : BoundRule) : Value :=
  let opaqueParam := r.param.isCallable || r.param.isBuiltin .tuple
  .dict [(.text r.name, if opaqueParam then .text r.param.repr else r.param)]

end BoundRule
end Conform
