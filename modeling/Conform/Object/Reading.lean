import Conform.Object
import Conform.Schema.Reading

/-!
Objects read back from values: the step, the violation, the rule, the shape or the node that a value is. A
schema inside a value is known by its serial number, so reading a target takes what the numbers stand
for. Reading ends because the parts of an object are shallower than the object.
-/

namespace Conform

namespace Value

/-- Whether a value is one of the engine's own objects of a class. -/
def isOf (c : RecordClass) : Value → Bool
  | .record r _ => r.cls == c
  | _ => false

/-- The serial number of one of the engine's own objects; other values have none. -/
def serial : Value → Nat
  | .record r _ => r.serial
  | _ => 0

/-- One of the engine's own objects with another serial number. -/
def numbered (v : Value) (serial : Nat) : Value :=
  match v with
  | .record r attributes => .record { r with serial } attributes
  | v => v

/-- A part of an object; absent when there is none. -/
def part (v : Value) (name : String) : Value := (v.attribute? name).getD .absent

/-- The items of a value; none when there are none. -/
def items (v : Value) : List Value := v.iterate?.getD []

/-- The entries of a value that is a mapping; none for others. -/
def entries (v : Value) : List (Value × Value) := v.entries?.getD []

theorem depth_pos_of_isOf {v : Value} {c : RecordClass} (h : v.isOf c = true) : 0 < v.depth := by
  apply depth_pos
  rintro rfl
  simp [isOf] at h

/-- A part of an object is shallower than the object. -/
theorem depth_part_lt {v : Value} {name : String} (h : 0 < v.depth) : (v.part name).depth < v.depth := by
  unfold part
  cases ha : v.attribute? name with
  | none => simpa [depth] using h
  | some w => simpa using depth_lt_of_attribute ha

theorem depthEntries_part_lt {v : Value} {name : String} {kind : MappingKind} {entries : List (Value × Value)}
    (h : 0 < v.depth) (hpart : v.part name = .mapping kind entries) : depthEntries entries < v.depth := by
  have := @depth_part_lt v name h
  rw [hpart, depth] at this
  omega

end Value

def FieldKind.ofValue? (v : Value) : Option FieldKind :=
  v.asText?.bind fun s => FieldKind.all.find? fun k => k.name == s

/-- Every kind of step. -/
def SegmentKind.all : List SegmentKind := [.field, .index, .key, .variant]

def Segment.ofObject? (v : Value) : Option Segment :=
  if v.isOf .segment then
    ((v.part "kind").asText?.bind fun s => SegmentKind.all.find? fun k => k.name == s).map fun k =>
      ⟨k, v.part "value"⟩
  else none

def Violation.ofObject? (v : Value) : Option Violation :=
  if v.isOf .violation then
    (v.part "kind").asText?.map fun kind =>
      ⟨kind, (v.part "context").entries, (v.part "path").items.filterMap Segment.ofObject?⟩
  else none

def Report.ofObject? (v : Value) : Option Report :=
  if v.isOf .report then
    some ⟨(v.part "valid").truthy, v.part "value", (v.part "errors").items.filterMap Violation.ofObject?⟩
  else none

/-- The outcome that a value is: a report, or just the value. -/
def Outcome.ofObject (v : Value) : Outcome :=
  match Report.ofObject? v with
  | some r => .report r
  | none => .value v

/-- Every check of the engine. -/
def BuiltinCheck.all : List BuiltinCheck :=
  [.min, .max, .equal, .optionMin, .optionMax, .minLen, .maxLen, .predicate, .pattern, .oneOf]

def BuiltinCheck.named? (name : String) : Option BuiltinCheck :=
  BuiltinCheck.all.find? fun b => b.functionName == name

def Check.ofObject (v : Value) : Check :=
  match v with
  | .function f =>
    match (if f.className = "function" then BuiltinCheck.named? f.name else none) with
    | some b => .builtin b
    | none => .custom v
  | v => .custom v

/-- How a value checks parameters; an absent one does not. -/
def ParameterCheck.ofObject? (v : Value) : Option ParameterCheck :=
  let engines : List ParameterCheck := [.ordinal, .equal, .length, .predicate, .pattern, .oneOf]
  match v with
  | .absent => none
  | .function f =>
    match engines.find? fun c => c.toObject.eq (.function f) with
    | some c => some c
    | none => some (.custom v)
  | v => some (.custom v)

def ConstraintFunction.ofObject? (v : Value) : Option ConstraintFunction :=
  if v.isOf .constraint then
    some
      { name := (v.part "name").asText?.getD "", check := Check.ofObject (v.part "func"),
        appliesTo := (v.part "applies_to").items.filterMap FieldKind.ofValue?,
        checkParam := ParameterCheck.ofObject? (v.part "check_param"), bound := (v.part "bound").asText?,
        group := (v.part "group").asText?, exclusive := (v.part "exclusive").truthy,
        callableParam := (v.part "callable_param").truthy, description := (v.part "description").asText?.getD "" }
  else none

def BoundRule.ofObject? (v : Value) : Option BoundRule :=
  if v.isOf .boundRule then
    (ConstraintFunction.ofObject? (v.part "function")).map fun f => ⟨f, v.part "param"⟩
  else none

/-- Schemas by serial number. -/
abbrev SchemaIndex := Nat → Option Schema

def Target.ofObject (known : SchemaIndex) (v : Value) : Target :=
  match (if v.isOf .schema then known v.serial else none) with
  | some s => .schema s
  | none => .value v

mutual

def Shape.ofObject? (known : SchemaIndex) (v : Value) : Option Shape :=
  if hv : v.isOf .shape = true then
    have hpos := Value.depth_pos_of_isOf hv
    have : (v.part "inner").depth < v.depth := Value.depth_part_lt hpos
    have : (v.part "keys").depth < v.depth := Value.depth_part_lt hpos
    let cases := match hm : v.part "variants" with
      | .mapping _ entries =>
        have := Value.depthEntries_part_lt hpos hm
        some (Payload.ofEntries known entries)
      | _ => none
    (FieldKind.ofValue? (v.part "kind")).map fun kind =>
      .mk kind ((v.part "rules").items.filterMap Rule.ofValue?) (v.part "python_type")
        (Shape.ofObject? known (v.part "inner")) (Shape.ofObject? known (v.part "keys"))
        (Target.ofObject known (v.part "target")) cases (v.part "tag")
  else none
termination_by (v.depth, 0)
decreasing_by
  all_goals
    simp only [Prod.lex_def]
    omega

/-- The payloads of cases by name: a shape where the value is one, and else a target. -/
def Payload.ofEntries (known : SchemaIndex) : List (Value × Value) → List (Value × Payload)
  | [] => []
  | (name, p) :: rest =>
    let payload : Payload := match Shape.ofObject? known p with
      | some s => .shape s
      | none => .target (Target.ofObject known p)
    (name, payload) :: Payload.ofEntries known rest
termination_by entries => (Value.depthEntries entries, entries.length + 1)
decreasing_by
  all_goals
    simp_wf
    simp only [Prod.lex_def, Value.depthEntries]
    omega

end

def ShapeSpelling.ofValue (known : SchemaIndex) (v : Value) : ShapeSpelling :=
  match Shape.ofObject? known v with
  | some s => .shape s
  | none => .value v

mutual

/-- The node that a value is; of the parts of a node only those of its kind are read. -/
def Node.ofObject? (known : SchemaIndex) (v : Value) : Option Node :=
  if hv : v.isOf .node = true then
    have hpos := Value.depth_pos_of_isOf hv
    have : (v.part "inner").depth < v.depth := Value.depth_part_lt hpos
    have : (v.part "keys").depth < v.depth := Value.depth_part_lt hpos
    let rules := (v.part "rules").items.filterMap BoundRule.ofObject?
    let inner := Node.ofObject? known (v.part "inner")
    let keys := Node.ofObject? known (v.part "keys")
    let cases := match hm : v.part "variants" with
      | .mapping _ entries =>
        have := Value.depthEntries_part_lt hpos hm
        Node.ofEntries known entries
      | _ => []
    (FieldKind.ofValue? (v.part "kind")).map fun kind => match kind with
      | .scalar => .scalar rules (v.part "python_type")
      | .optional => .wrapper .optional rules inner keys
      | .sequence => .wrapper .sequence rules inner keys
      | .mapping => .wrapper .mapping rules inner keys
      | .nested => .nested rules (Target.ofObject known (v.part "target"))
      | .enum => .variants rules cases (v.part "tag")
  else none
termination_by (v.depth, 0)
decreasing_by
  all_goals
    simp only [Prod.lex_def]
    omega

/-- The nodes of cases by name. -/
def Node.ofEntries (known : SchemaIndex) : List (Value × Value) → List (Value × Option Node)
  | [] => []
  | (name, p) :: rest => (name, Node.ofObject? known p) :: Node.ofEntries known rest
termination_by entries => (Value.depthEntries entries, entries.length + 1)
decreasing_by
  all_goals
    simp_wf
    simp only [Prod.lex_def, Value.depthEntries]
    omega

end

def FieldSpec.ofObject? (known : SchemaIndex) (v : Value) : Option FieldSpec :=
  if v.isOf .fieldSpec then (Node.ofObject? known (v.part "node")).map fun n => ⟨v.part "name", n⟩ else none

end Conform
