import Conform.Session.Requests

/-!
Requests to tables. Any number of tables stand in a session; they are made empty, with functions or as copies of one
another, builders hold them, and a builder that builds freezes the one that it holds.
-/

namespace Conform

/-- What can be asked of a table. -/
inductive TableRequest where
  | register (f : ConstraintFunction) (overwrite : Bool)
  | define (f : ConstraintFunction) (overwrite : Bool)
  /-- Registers a function of the program with options, under a given name or, when that is empty, under its own. -/
  | decorate (given : String) (func : Value) (options : ConstraintFunction) (overwrite : Bool)
  | unregister (key : Value)
  | clear
  | freeze
  | get (key : Value)
  | copy (name : String)

/-- What tables and builders answer. -/
inductive TableAnswer where
  | nothing
  | function (f : ConstraintFunction)
  | value (v : Value)
  /-- A table or a builder, by its number. -/
  | object (serial : Nat)

/-- A call of a table or of a builder, or one that makes either. -/
inductive TableCall where
  | create (name : String) (functions : List ConstraintFunction)
  | builder (b : SchemaBuilder) (table : Nat)
  | build (builder : Nat)
  | ask (table : Nat) (r : TableRequest)

/-- The constraint function that a decorated function makes. -/
def ConstraintFunction.decorated (given : String) (func : Value) (options : ConstraintFunction) :
    Except Fault ConstraintFunction := do
  let name ← if given.isEmpty then func.requireName else pure given
  return { options with name, check := .ofObject func }.described

namespace Action

/-- The table of a number; a number under which none stands is no name of a table. -/
def requireTable (n : Nat) : Action FunctionTable := do
  match (← get).objects.lookup n with
  | some (.table t) => return t
  | _ => throw (.undefinedName (toString n))

/-- The builder of a number, with the number of its table. -/
def requireBuilder (n : Nat) : Action (SchemaBuilder × Nat) := do
  match (← get).objects.lookup n with
  | some (.builder b table) => return (b, table)
  | _ => throw (.undefinedName (toString n))

end Action

/-- Makes a request of the table of a number. -/
def TableRequest.perform (n : Nat) : TableRequest → Action TableAnswer
  | .register f overwrite => do
    let _ ← Action.register n f overwrite
    return .nothing
  | .define f overwrite => do
    let _ ← Action.define n f overwrite
    return .function f.described
  | .decorate given func options overwrite => do
    let f ← Action.lift (ConstraintFunction.decorated given func options)
    let _ ← Action.register n f overwrite
    return .value func
  | .unregister key => return .function (← Action.changeTable n fun t => t.unregister key)
  | .clear => do
    Action.changeTable n fun t => t.clear.map fun t => ((), t)
    return .nothing
  | .freeze => do
    Action.freeze n
    return .object n
  | .get key => do
    let t ← Action.requireTable n
    return .function (← Action.lift (t.get key))
  | .copy name => do
    let t ← Action.requireTable n
    return .object (← Action.place (.table (← Action.lift (t.copy name))))

namespace TableCall

def perform : TableCall → Action TableAnswer
  | .create name functions => do
    let t ← Action.lift ((FunctionTable.empty name).registerAll functions)
    return .object (← Action.place (.table t))
  | .builder b table => return .object (← Action.place (.builder b table))
  | .build n => do
    let (_, table) ← Action.requireBuilder n
    let _ ← Action.requireTable table
    return .value (← Action.buildSchema n)
  | .ask n r => do
    let _ ← Action.requireTable n
    r.perform n

/-- The answers to calls in the order in which they are made, and the session after them. -/
def run : List TableCall → Session → List (Except Fault TableAnswer) × Session
  | [], s => ([], s)
  | c :: rest, s =>
    let made := c.perform.runWith s
    let after := run rest made.2
    (made.1 :: after.1, after.2)

end TableCall
end Conform
