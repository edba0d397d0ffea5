import Conform.Configuration.Documents
import Conform.Declaration.ClassSchema
import Conform.Declaration.HintPool
import Conform.Validation

/-!
Sessions. Some objects change while others hold them: a builder shares its table with whoever made the
table, and the report of a recorder shares the violations that the recorder still collects. A session keeps
such objects under serial numbers, with the classes and the schemas that were declared. A value that shows
a live object carries its number, and `Session.refresh` brings it up to date.
-/

namespace Conform

/-- An object that changes while others hold it. -/
inductive LiveObject where
  | violations (vs : List Violation)
  /-- A report, with the number of its violations. -/
  | report (valid : Bool) (value : Value) (errors : Nat)
  /-- A recorder, with the number of its violations. -/
  | recorder (errors : Nat) (path : Path)
  | table (t : FunctionTable)
  /-- A builder, with the number of its table. -/
  | builder (b : SchemaBuilder) (table : Nat)
  /-- A factory, with the number of its table. -/
  | factory (schemas : List (Value × Schema)) (table : Nat)
  | hint (h : Hint)

/-- How an instance validates itself: as the engine has it, or by what an attribute holds. -/
inductive ValidateMethod where
  | engine
  | attribute (f : Value)

/-- Everything that was made so far. -/
structure Session where
  /-- Values by name. -/
  names : List (String × Value)
  objects : List (Nat × LiveObject)
  classes : List (Nat × ClassModel × Option Schema)
  schemas : List (Nat × Schema)
  /-- The recorders that entered a step and did not leave it, the latest first. -/
  entered : List Nat
  nextSerial : Nat
  /-- The hints that later hints may turn out to be. -/
  hints : HintPool

namespace Session

/-- The number of the frozen table that builders use when they are given none. -/
def sharedTable : Nat := 1

/-- A session in which nothing was made. -/
def start : Session := ⟨[], [(sharedTable, .table .default)], [], [], [], sharedTable + 1, {}⟩

/-- A session after another: nothing of it is left but the hints that it shares, and no number is used
again. -/
def next (s : Session) : Session := { start with nextSerial := s.nextSerial, hints := s.hints }

/-- Sets what stands under a number. -/
def assign {α : Type} (serial : Nat) (a : α) : List (Nat × α) → List (Nat × α)
  | [] => [(serial, a)]
  | (n, b) :: rest => if n = serial then (n, a) :: rest else (n, b) :: assign serial a rest

/-! ### Looking at a session -/

def schema? (s : Session) (serial : Nat) : Option Schema := s.schemas.lookup serial

/-- What a class says of its schema: the one that it was declared with, else what stands under the name of the attribute
for it, which may be no schema. -/
def ownSchema? (s : Session) (m : ClassModel) : Option Schema → Option (Option Schema)
  | some schema => some (some schema)
  | none => (m.attributes.lookup "__validation_schema__").map fun a => match Target.ofObject s.schema? a.toObject with
    | .schema schema => some schema
    | .value _ => none

/-- The schema that a class carries: what the nearest class says that says something, from itself upwards. -/
def classSchema? (s : Session) (c : DeclaredClass) : Option Schema :=
  ((c.serial :: c.ancestors).findSome? fun n => (s.classes.lookup n).bind fun (m, schema) => s.ownSchema? m schema).join

/-- The method by which instances of a class validate themselves, from the nearest class that has one. A class that was
declared with a schema has that of the engine, unless it had an attribute of that name. -/
def validateMethod? (s : Session) (c : DeclaredClass) : Option ValidateMethod :=
  (c.serial :: c.ancestors).findSome? fun n => (s.classes.lookup n).bind fun (m, schema) =>
    match m.attributes.lookup "validate" with
    | some a => some (.attribute a.toObject)
    | none => if schema.isSome && (m.attribute? "validate").isNone then some .engine else none

def violations (s : Session) (serial : Nat) : List Violation :=
  match s.objects.lookup serial with
  | some (.violations vs) => vs
  | _ => []

/-- The table of a number; the shared one does not change. -/
def table (s : Session) (serial : Nat) : FunctionTable :=
  match s.objects.lookup serial with
  | some (.table t) => t
  | _ => .default

/-- The recorder of a number, with the number of its violations. -/
def recorder (s : Session) (serial : Nat) : Nat × Recorder :=
  match s.objects.lookup serial with
  | some (.recorder errors path) => (errors, ⟨s.violations errors, path⟩)
  | _ => (0, .empty)

def violationsValue (s : Session) (serial : Nat) : Value :=
  (Violation.listObject (s.violations serial)).numbered serial

/-- A table as a value, with its functions by name. -/
def tableValue (s : Session) (serial : Nat) : Value :=
  let t := s.table serial
  .record ⟨.table, serial, t.text, t.text⟩ (t.functions.map fun f => (f.name, f.toObject))

/-- A live object as a value. -/
def toValue (s : Session) (serial : Nat) : Value :=
  let shown (c : RecordClass) (attributes : List (String × Value)) : Value :=
    (Object.shown c none attributes).numbered serial
  match s.objects.lookup serial with
  | none => .absent
  | some o => match o with
    | .violations _ => s.violationsValue serial
    | .report valid value errors =>
      shown .report [("valid", .bool valid), ("value", value), ("errors", s.violationsValue errors)]
    | .recorder errors path =>
      shown .recorder [("path", Path.toObject path), ("errors", s.violationsValue errors)]
    | .table _ => s.tableValue serial
    | .builder b table => shown .builder [("name", b.name), ("functions", s.tableValue table)]
    | .factory schemas _ => shown .factory [("schemas", .dict (schemas.map fun (n, sch) => (n, sch.toObject)))]
    | .hint _ => shown .module []

mutual

/-- A value in which every live object is as it is now. -/
def refresh (s : Session) : Value → Value
  | .sequence k items => .sequence k (s.refreshItems items)
  | .bag n items => .bag n (s.refreshItems items)
  | .set frozen items => .set frozen (s.refreshItems items)
  | .mapping k entries => .mapping k (s.refreshEntries entries)
  | .object c n own inherited => .object c n (s.refreshAttributes own) inherited
  | .record r attributes =>
    if (s.objects.lookup r.serial).isSome then s.toValue r.serial else .record r attributes
  | v => v

/-- Items in which every live object is as it is now. -/
def refreshItems (s : Session) : List Value → List Value
  | [] => []
  | v :: rest => s.refresh v :: s.refreshItems rest

/-- Entries in whose values every live object is as it is now. -/
def refreshEntries (s : Session) : List (Value × Value) → List (Value × Value)
  | [] => []
  | (k, v) :: rest => (k, s.refresh v) :: s.refreshEntries rest

/-- Attributes in which every live object is as it is now. -/
def refreshAttributes (s : Session) : List (String × Value) → List (String × Value)
  | [] => []
  | (n, v) :: rest => (n, s.refresh v) :: s.refreshAttributes rest

end

def hintOf (s : Session) : Value → Hint
  | .cls c attributes => .cls c attributes
  | .absent => .nothing
  | v => match s.objects.lookup v.serial with
    | some (.hint h) => h
    | _ => .generic (.other "") []

/-- What a value is validated against when it is validated against another. -/
def validationTarget (s : Session) (v : Value) : ValidationTarget :=
  match v with
  | .absent => .own
  | v => match Node.ofObject? s.schema? v, Shape.ofObject? s.schema? v, Target.ofObject s.schema? v with
    | some n, _, _ => .node n
    | none, some shape, _ => .shape shape
    | none, none, .schema schema => .schema schema
    | none, none, .value v => .value v

end Session

/-! ### Changing a session -/

/-- A computation in a session; what it changed before a fault stays changed. -/
abbrev Action := ExceptT Fault (StateM Session)

namespace Action

/-- A computation that changes nothing. -/
def lift {α : Type} (e : Except Fault α) : Action α := ExceptT.mk (pure e)

/-- A number that was not used before. -/
def fresh : Action Nat := do
  let s ← get
  set { s with nextSerial := s.nextSerial + 1 }
  return s.nextSerial

/-- Changes the live object of a number. -/
def put (serial : Nat) (o : LiveObject) : Action Unit :=
  modify fun s => { s with objects := Session.assign serial o s.objects }

/-- The live object of a number as a value. -/
def shown (serial : Nat) : Action Value := do return (← get).toValue serial

/-- Makes a live object, and gives its number. -/
def place (o : LiveObject) : Action Nat := do
  let n ← fresh
  modify fun s => { s with objects := (n, o) :: s.objects }
  return n

def make (o : LiveObject) : Action Value := do shown (← place o)

def remember (schema : Schema) : Action Value := do
  modify fun s => { s with schemas := Session.assign schema.serial schema s.schemas }
  return schema.toObject

/-- A hint, or the equal one that was made before. -/
def share (h : Hint) : Action Hint := do
  let (shared, hints) := (← get).hints.share h
  modify fun s => { s with hints }
  return shared

/-- A value under a new number. -/
def numbered (v : Value) : Action Value := do return v.numbered (← fresh)

end Action
end Conform
