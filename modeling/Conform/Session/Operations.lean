import Conform.Session.Basic
import Conform.Value.Construct

/-!
What can be done with live objects. Every operation looks its object up, changes it, and gives what callers
see of it.
-/

namespace Conform

/-- The function with a description: its own, else that of what it runs. -/
def ConstraintFunction.described (f : ConstraintFunction) : ConstraintFunction :=
  match f.description, f.check with
  | "", .custom (.function g) => { f with description := trimBlanks g.doc }
  | _, _ => f

namespace Action

/-! ### Violations and reports -/

/-- Makes a collection of violations. -/
def makeViolations (vs : List Violation) : Action Value := make (.violations vs)

/-- Changes a collection of violations. -/
def addViolations (serial : Nat) (vs : List Violation) : Action Unit := do
  put serial (.violations ((← get).violations serial ++ vs))

/-- Makes a report with violations of its own. -/
def makeReport (r : Report) : Action Value := do
  let errors ← makeViolations r.violations
  make (.report r.valid r.value errors.serial)

/-- Makes a failed report. A collection of violations is shared with it; other items are copied. -/
def makeFailure (value errors : Value) : Action Value := do
  let shared ← if errors.isOf .violations && errors.serial ≠ 0 then pure errors
    else makeViolations ((← lift errors.iterate).filterMap Violation.ofObject?)
  let r ← lift (Report.failure value ((← get).violations shared.serial))
  make (.report r.valid r.value shared.serial)

def ofOutcome : Outcome → Action Value
  | .value v => return v
  | .report r => makeReport r

/-! ### Recorders -/

/-- Makes a recorder with nothing reported. -/
def makeRecorder : Action Value := do
  let errors ← makeViolations []
  make (.recorder errors.serial [])

def record (serial : Nat) (change : Recorder → Recorder) : Action Value := do
  let (errors, r) := (← get).recorder serial
  let r := change r
  put errors (.violations r.violations)
  put serial (.recorder errors r.path)
  shown serial

/-- Records violations found elsewhere: those of a report, or the items of a value. An item that is no
violation stops it, after those before it. -/
def adopt (serial : Nat) (found : Value) : Action Value := do
  let items ← match Report.ofObject? found with
    | some r => pure (r.violations.map Violation.toObject)
    | none => lift found.iterate
  let isViolation (v : Value) : Bool := (Violation.ofObject? v).isSome
  let result ← record serial (·.adopt ((items.takeWhile isViolation).filterMap Violation.ofObject?))
  match items.dropWhile isViolation with
  | [] => return result
  | v :: _ => throw (.lacking v "prefixed")

/-- The report of a recorder. A failed one shares the violations with the recorder. -/
def buildReport (serial : Nat) (value : Value) : Action Value := do
  let (errors, r) := (← get).recorder serial
  if r.hasViolations then make (.report false value errors) else makeReport (r.build value)

/-- Takes a step that stays open. -/
def enter (serial : Nat) (segment : Segment) : Action Value := do
  modify fun s => { s with entered := serial :: s.entered }
  record serial (·.enter segment)

/-- Takes the latest open step back. -/
def leave : Action Unit := do
  match (← get).entered with
  | [] => pure ()
  | serial :: rest =>
    modify fun s => { s with entered := rest }
    let _ ← record serial .leave

/-! ### Tables -/

/-- Changes a table, and gives what the change gives. -/
def changeTable {α : Type} (serial : Nat) (change : FunctionTable → Except Fault (α × FunctionTable)) :
    Action α := do
  let (a, t) ← lift (change ((← get).table serial))
  put serial (.table t)
  return a

def register (serial : Nat) (f : ConstraintFunction) (overwrite : Bool) : Action Value :=
  changeTable serial fun t => (t.register f overwrite).map fun t => (f.toObject, t)

/-- Registers a function; one without a description of its own has that of what it runs. -/
def define (serial : Nat) (f : ConstraintFunction) (overwrite : Bool) : Action Value :=
  register serial f.described overwrite

def freeze (serial : Nat) : Action Unit := do put serial (.table ((← get).table serial).freeze)

/-! ### Builders and factories -/

/-- Changes a builder in view of its table. -/
def declare (serial : Nat) (change : SchemaBuilder → FunctionTable → Except Fault SchemaBuilder) :
    Action Value := do
  match (← get).objects.lookup serial with
  | some (.builder b table) =>
    put serial (.builder (← lift (change b ((← get).table table))) table)
    shown serial
  | _ => shown serial

/-- Compiles a shape that stands alone. -/
def compileShape (h : Host) (serial : Nat) (shape : ShapeSpelling) : Action Value := do
  match (← get).objects.lookup serial with
  | some (.builder b table) => numbered (← lift (b.compileShape h ((← get).table table) shape)).toObject
  | _ => return .absent

/-- Builds the schema of a builder, and freezes its table. -/
def buildSchema (serial : Nat) : Action Value := do
  match (← get).objects.lookup serial with
  | some (.builder b table) =>
    freeze table
    remember (b.build (← fresh))
  | _ => return .absent

/-- Runs a creation with a table and the schemas that it can refer to, and gives these schemas after it. -/
def creating {α : Type} (schemas : List (Value × Schema)) (table : Nat) (creation : Creation α) :
    Action (Except Fault α × List (Value × Schema)) := do
  let s ← get
  let (result, f) := creation.run.run ⟨s.table table, schemas, s.nextSerial⟩
  set { s with nextSerial := f.nextSerial }
  put table (.table f.table)
  f.schemas.forM fun (_, schema) => discard (remember schema)
  return (result, f.schemas)

/-- Runs a creation with a factory; what it created before a fault stays. -/
def create {α : Type} (serial : Nat) (creation : Creation α) : Action α := do
  match (← get).objects.lookup serial with
  | some (.factory schemas table) =>
    let (result, schemas) ← creating schemas table creation
    put serial (.factory schemas table)
    lift result
  | _ => throw (.notCallable "NoneType")

/-- The schemas of a factory by name. -/
def createdSchemas (serial : Nat) : Action (List (Value × Schema)) := do
  match (← get).objects.lookup serial with
  | some (.factory schemas _) => return schemas
  | _ => return []

/-- Schemas as a mapping of their names. -/
def schemasValue (schemas : List (Value × Schema)) : Value := .dict (schemas.map fun (n, s) => (n, s.toObject))

/-! ### Classes -/

/-- Declares a class; with a schema when a table of functions and options for it are given. -/
def declareClass (h : Host) (scope : String → Option Hint) (d : ClassDeclaration)
    (described : Option (Nat × SchemaOptions)) : Action Value := do
  let serial ← fresh
  let m ← lift (ClassModel.declare serial d)
  let schema ← match described with
    | none => pure none
    | some (table, options) => do
      let schema ← lift (m.schema h ((← get).table table) scope (← fresh) options)
      freeze table
      discard (remember schema)
      pure (some schema)
  modify fun s => { s with classes := (serial, m, schema) :: s.classes }
  return m.toValue

/-- A new instance of a declared class. -/
def instantiate (h : Host) (c : DeclaredClass) (given : List (String × Value)) : Action Value := do
  match (← get).classes.lookup c.serial with
  | some (m, _) => lift (m.construct h (← fresh) given)
  | none => return .object c (← fresh) given []

end Action

namespace Session

/-- Calls a class with some attributes. The class of an enumeration gives the member of a value; an instance
that is made in passing has no number of its own. -/
def construct (s : Session) (h : Host) (c : ClassRef) (attributes : List (String × Value)) (args : List Value) :
    Except Fault Value :=
  match c with
  | .builtin c => c.construct args
  | .enumeration e => match args with
    | [v] => match attributes.find? fun (_, m) => m.eq v || (m.part "value").eq v with
      | some (_, m) => .ok m
      | none => .error (.raised "ValueError" (v.repr ++ " is not a valid " ++ e.name))
    | args => .error (.extraArguments e.name 1 args.length)
  | .declared c => match s.classes.lookup c.serial with
    | some (m, _) => m.construct h 0 (((m.fields?.getD []).map DataField.name).zip args)
    | none => .ok (.object c 0 [] [])
  | c => .error (.notCallable c.metaName)

def attributeOf (s : Session) (v : Value) (name : String) : Except Fault Value :=
  let held : Except Fault Value := match v.attribute? name with
    | some w => .ok (s.refresh w)
    | none => .error (.lacking v name)
  match v with
  | .record r _ => match r.cls, name with
    | .violation, "message" => .ok (.text (((Violation.ofObject? v).map Violation.message).getD ""))
    | .boundRule, "name" => .ok ((v.part "function").part "name")
    | .fieldSpec, "segment" => .ok (FieldSpec.segmentOf (v.part "name")).toObject
    | .table, "name" => .ok (.text (s.table r.serial).name)
    | .table, "frozen" => .ok (.bool (s.table r.serial).frozen)
    | _, _ => held
  | _ => held

end Session

/-- One of the engine's own objects as a mapping. -/
def objectAsMapping (known : SchemaIndex) (v : Value) : Except Fault Value :=
  match Segment.ofObject? v, Violation.ofObject? v, Report.ofObject? v, BoundRule.ofObject? v with
  | some x, _, _, _ => .ok x.toValue
  | _, some x, _, _ => .ok x.toValue
  | _, _, some x, _ => .ok x.toValue
  | _, _, _, some x => .ok x.toValue
  | none, none, none, none => match Node.ofObject? known v, Target.ofObject known v with
    | some x, _ => x.toValue
    | none, .schema x => x.toValue
    | none, .value v => .error (.lacking v "to_dict")

/-- Calls the method by which a value validates: schemas and nodes validate what they are given, and so do classes that
have the method of the engine; an instance validates itself. An attribute of an instance of that name comes first. -/
def validateMethod (h : Host) (method? : DeclaredClass → Option ValidateMethod) (v : Value) (args : List Value) :
    Except Fault Outcome :=
  let own (w : Value) : Except Fault Outcome := (validate h w .own).map .report
  match v with
  | .record r _ =>
    match Node.ofObject? h.schemaObject v, Target.ofObject h.schemaObject v, args with
    | some n, _, [w] => (n.validate h w).map .report
    | _, .schema s, [w] => (s.validate h w).map .report
    | _, _, _ => .error (.noAttribute r.cls.name "validate")
  | .object c _ attributes _ =>
    match (attributes.lookup "validate").map .attribute <|> method? c, args with
    | some (.attribute f), args => h.callValue f args
    | some .engine, [] => own v
    | some .engine, args => .error (.extraArguments "_validate_instance" 1 (args.length + 1))
    | none, _ => .error (.lacking v "validate")
  | .cls (.declared c) _ =>
    match method? c, args with
    | some (.attribute f), args => h.callValue f args
    | some .engine, [w] => own w
    | some .engine, [] => .error (.missingArguments "_validate_instance" ["self"])
    | some .engine, args => .error (.extraArguments "_validate_instance" 1 args.length)
    | none, _ => .error (.lacking v "validate")
  | v => match v.attribute? "validate" with
    | some f => h.callValue f args
    | none => .error (.lacking v "validate")

end Conform
