import Conform.Value.Equality
import Conform.Fault
import Conform.Constraint.Basic

/-!
Function tables: constraint functions by name, in the order of their first registration. A table is open
until it is frozen; from then on it refuses every change.
-/

namespace Conform

/-- Constraint functions under their names, and whether the table is frozen. -/
structure FunctionTable where
  name : String
  functions : List ConstraintFunction
  frozen : Bool
  deriving Inhabited

namespace FunctionTable

/-- An open table without functions. -/
def empty (name : String) : FunctionTable := ⟨name, [], false⟩

def names (t : FunctionTable) : List String := t.functions.map ConstraintFunction.name

/-- The function of a name, if there is one. -/
def find? (t : FunctionTable) (name : String) : Option ConstraintFunction :=
  t.functions.find? fun f => f.name == name

def has (t : FunctionTable) (name : String) : Bool := (t.find? name).isSome

/-- Puts a function in the place of the one of its name, or at the end. -/
def put (f : ConstraintFunction) : List ConstraintFunction → List ConstraintFunction
  | [] => [f]
  | g :: rest => if g.name = f.name then f :: rest else g :: put f rest

/-- Registers a function under its name; a name that is taken is refused unless it may be overwritten. -/
def register (t : FunctionTable) (f : ConstraintFunction) (overwrite : Bool) : Except Fault FunctionTable :=
  if t.frozen then .error (.refused (.frozenTable t.name (some (.text f.name))))
  else if !overwrite && t.has f.name then .error (.refused (.alreadyRegistered t.name f.name))
  else .ok { t with functions := put f t.functions }

/-- Registers functions in turn. -/
def registerAll (t : FunctionTable) (fs : List ConstraintFunction) : Except Fault FunctionTable :=
  fs.foldlM (fun t f => t.register f false) t

/-- The name that a key stands for, if it can stand for one. -/
def keyName (key : Value) : Except Fault (Option String) :=
  match key.unhashable? with
  | some c => .error (.unhashable c)
  | none => .ok key.asText?

/-- Removes the function of a key, and gives it. -/
def unregister (t : FunctionTable) (key : Value) : Except Fault (ConstraintFunction × FunctionTable) := do
  if t.frozen then throw (.refused (.frozenTable t.name (some key)))
  match (← keyName key).bind t.find? with
  | some f => return (f, { t with functions := t.functions.filter fun g => g.name != f.name })
  | none => throw (.refused (.missingEntry t.name key))

/-- Removes every function. -/
def clear (t : FunctionTable) : Except Fault FunctionTable :=
  if t.frozen then .error (.refused (.frozenTable t.name none)) else .ok { t with functions := [] }

/-- The function of a key, if there is one. -/
def getOptional (t : FunctionTable) (key : Value) : Except Fault (Option ConstraintFunction) :=
  (keyName key).map fun n => n.bind t.find?

def get (t : FunctionTable) (key : Value) : Except Fault ConstraintFunction := do
  match ← t.getOptional key with
  | some f => return f
  | none => throw (.refused (.unknownConstraint key t.names [("table", .text t.name)]))

/-- Closes a table to further changes. -/
def freeze (t : FunctionTable) : FunctionTable := { t with frozen := true }

/-- An open table of another name, or the same when the name is empty, where the same functions are registered in turn. -/
def copy (t : FunctionTable) (name : String) : Except Fault FunctionTable :=
  (empty (if name.isEmpty then t.name else name)).registerAll t.functions

def text (t : FunctionTable) : String :=
  "FunctionTable(" ++ (Value.text t.name).repr ++ ", " ++ toString t.functions.length ++ " functions, "
    ++ (if t.frozen then "frozen" else "open") ++ ")"

/-! ### The functions of the engine -/

/-- The functions that every schema can use. -/
def builtins : List ConstraintFunction :=
  [ { name := "min", check := .builtin .min, appliesTo := [.scalar], checkParam := some .ordinal,
      bound := some "lower", group := some "value", description := "value >= bound" },
    { name := "max", check := .builtin .max, appliesTo := [.scalar], checkParam := some .ordinal,
      bound := some "upper", group := some "value", description := "value <= bound" },
    { name := "equal", check := .builtin .equal, checkParam := some .equal, exclusive := true,
      description := "value == expected" },
    { name := "option_min", check := .builtin .optionMin, appliesTo := [.optional], checkParam := some .ordinal,
      bound := some "lower", group := some "value", description := "absent, or value >= bound" },
    { name := "option_max", check := .builtin .optionMax, appliesTo := [.optional], checkParam := some .ordinal,
      bound := some "upper", group := some "value", description := "absent, or value <= bound" },
    { name := "min_len", check := .builtin .minLen, appliesTo := [.scalar, .sequence, .mapping],
      checkParam := some .length, bound := some "lower", group := some "length",
      description := "len(value) >= bound" },
    { name := "max_len", check := .builtin .maxLen, appliesTo := [.scalar, .sequence, .mapping],
      checkParam := some .length, bound := some "upper", group := some "length",
      description := "len(value) <= bound" },
    { name := "predicate", check := .builtin .predicate, checkParam := some .predicate, callableParam := true,
      description := "func(value) is truthy" },
    { name := "pattern", check := .builtin .pattern, appliesTo := [.scalar], checkParam := some .pattern,
      description := "value matches a regular expression" },
    { name := "one_of", check := .builtin .oneOf, appliesTo := [.scalar], checkParam := some .oneOf,
      exclusive := true, description := "value is in an allowed collection" } ]

/-- An open table of the functions of the engine. -/
def withBuiltins (name : String) : FunctionTable := ⟨name, builtins, false⟩

/-- The frozen table that schemas use when they are given none. -/
def default : FunctionTable := ⟨"builtins", builtins, true⟩

/-! ### What operations do to a table -/

theorem names_put_of_mem {f : ConstraintFunction} : ∀ {fs : List ConstraintFunction},
    f.name ∈ fs.map ConstraintFunction.name →
      (put f fs).map ConstraintFunction.name = fs.map ConstraintFunction.name
  | g :: rest, h => by
    unfold put
    split
    · next hg => simp [hg]
    · next hg =>
      have : f.name ∈ rest.map ConstraintFunction.name := by
        rcases List.mem_cons.mp h with h | h
        · exact absurd h.symm hg
        · exact h
      simp [names_put_of_mem this]

/-- A frozen table refuses every registration. -/
theorem register_frozen {t : FunctionTable} (h : t.frozen = true) (f : ConstraintFunction) (o : Bool) :
    t.register f o = .error (.refused (.frozenTable t.name (some (.text f.name)))) := by
  simp [register, h]

end FunctionTable
end Conform
