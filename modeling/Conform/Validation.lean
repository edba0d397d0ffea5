import Conform.Builder.Basic
import Conform.Schema.Visit

/-!
Validating a value against whatever is at hand: a schema, a node, a shape, a class with a schema, or
nothing. Without a target a value is validated by the schema of its own class; lists, tuples and sets
are walked by position and mappings by key, and an absent value is valid.
-/

namespace Conform

/-- What a value is validated against. -/
inductive ValidationTarget where
  /-- The schema of the value's own class. -/
  | own
  | schema (s : Schema)
  | node (n : Node)
  | shape (s : Shape)
  | value (v : Value)

namespace Value

def isClass : Value → Bool
  | .cls .. => true
  | _ => false

/-- The name of a value that is a class, else the name of its class. -/
def targetName (v : Value) : String :=
  match v with
  | .cls c _ => c.name
  | v => v.className

end Value

mutual

/-- Walks a value by the schemas of the classes in it. -/
def collectOwn (h : Host) (v : Value) (r : Recorder) : Except Fault Recorder :=
  match v with
  | .absent => .ok r
  | .mapping _ entries => collectOwnEntries h entries r
  | .sequence .list items | .sequence .tuple items | .set _ items => collectOwnItems h items 0 r
  | v =>
    if hv : v.isAbsent = true then .ok r
    else match h.schemaOf? v with
      | some s => s.collect h v hv r
      | none => .error (.refused (.schemaNotFound v.className))

/-- Walks elements from a position on. -/
def collectOwnItems (h : Host) (items : List Value) (position : Nat) (r : Recorder) :
    Except Fault Recorder :=
  match items with
  | [] => .ok r
  | v :: rest =>
    match r.inside (.index position) (collectOwn h v) with
    | .error f => .error f
    | .ok r => collectOwnItems h rest (position + 1) r

/-- Walks the values of entries. -/
def collectOwnEntries (h : Host) (entries : List (Value × Value)) (r : Recorder) : Except Fault Recorder :=
  match entries with
  | [] => .ok r
  | (k, v) :: rest =>
    match r.inside (.key k) (collectOwn h v) with
    | .error f => .error f
    | .ok r => collectOwnEntries h rest r

end

/-- Validates a value against a target. A shape is compiled with the functions of the engine. -/
def validate (h : Host) (v : Value) : ValidationTarget → Except Fault Report
  | .own => (collectOwn h v .empty).map fun r => r.build v
  | .schema s => s.validate h v
  | .node n => n.validate h v
  | .shape s => do
    let builder : SchemaBuilder := { name := .text "value" }
    (← builder.compileShape h .default (.shape s)).validate h v
  | .value target =>
    match (if target.isClass then h.schemaOf? target else none) with
    | some s => s.validate h v
    | none => .error (.refused (.schemaNotFound target.targetName))

end Conform
