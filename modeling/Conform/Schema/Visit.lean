import Conform.Schema.Description
import Conform.Schema.Reading

/-!
Validation. A value is walked together with the node that describes it, and every violation is recorded at
the path where it is found; a failing rule never stops the walk. `Node.validate` and `Schema.validate`
walk from the root. The walk ends because every step leads to a shallower value, or to a smaller node
at the same value, whatever schemas the classes on the way refer to.
-/

namespace Conform

namespace Violation

/-- A value that is missing. -/
def required : Violation := report "required" (Conform.details [("message", .text "value is required")]) []

/-- A value of the wrong kind. -/
def wrongType (expected v : Value) : Violation :=
  report "type" (Conform.details
    [("message", .text ("expected " ++ expected.str ++ ", got " ++ v.className)), ("expected", expected),
      ("actual", .text v.className)]) []

/-- A value for which no variant is selected. -/
def wrongVariant (cases : List (Value × Option Node)) (actual problem : String) : Except Fault Violation := do
  let names := cases.map Prod.fst
  let shown ← joinTexts ", " names
  return report "variant" (Conform.details
    [("message", .text (problem ++ ", expected one of: " ++ shown)), ("expected", .list names),
      ("actual", .text actual)]) []

/-- A value whose variant could not be determined. -/
def undetermined (cases : List (Value × Option Node)) (f : Fault) : Except Fault Violation :=
  wrongVariant cases f.kind ("variant could not be determined (" ++ f.kind ++ ": " ++ f.message ++ ")")

/-- A value of a variant that is none of the cases. -/
def unknownVariant (cases : List (Value × Option Node)) (name : Value) : Except Fault Violation :=
  wrongVariant cases name.str ("unknown variant " ++ name.repr)

end Violation

/-- Records a violation, unless it cannot be told. -/
def Recorder.record (r : Recorder) (v : Except Fault Violation) : Except Fault Recorder :=
  v.map fun v => r.adopt [v]

mutual

/-- Walks a value with a node, recording at the current path. -/
def visit (h : Host) (node : Node) (v : Value) (r : Recorder) : Except Fault Recorder :=
  if hv : v.isAbsent = true then
    match node with
    | .wrapper .optional _ _ _ => .ok r
    | _ => .ok (r.adopt [.required])
  else
    match node with
    | .scalar rules type =>
      match v.fits type with
      | .error f => .error f
      | .ok false => .ok (r.adopt [.wrongType (.text type.typeLabel) v])
      | .ok true => .ok (BoundRule.applyAll h rules v r)
    | .wrapper .optional rules inner _ =>
      visitInner h inner v (BoundRule.applyAll h rules v r)
    | .wrapper .sequence rules inner _ =>
      match v.elements?, @Value.depthItems_lt v with
      | none, _ => .ok (r.adopt [.wrongType (.text "sequence") v])
      | some items, hitems =>
        let r := BoundRule.applyAll h rules v r
        have := hitems rfl (Value.depth_pos_of_present hv)
        match inner with
        | none => .ok r
        | some node => visitItems h node items 0 r
    | .wrapper .mapping rules inner keys =>
      match v.entries?, @Value.depthEntries_lt v with
      | none, _ => .ok (r.adopt [.wrongType (.text "mapping") v])
      | some entries, hentries =>
        have := hentries rfl
        visitEntries h keys inner entries (BoundRule.applyAll h rules v r)
    | .nested rules target =>
      let r := BoundRule.applyAll h rules v r
      match h.requireSchema target with
      | .error f => .error f
      | .ok s =>
        match v.canHold s with
        | .error f => .error f
        | .ok false => .ok (r.adopt [.wrongType s.name v])
        | .ok true => (visitFields h v hv s.fields r).map (BoundRule.applyAll h s.checks v)
    | .variants rules cases tag =>
      let r := BoundRule.applyAll h rules v r
      match selectCase h tag v cases, @size_selectCase h tag v cases with
      | .error f, _ => r.record (Violation.undetermined cases f)
      | .ok (name, none), _ => r.record (Violation.unknownVariant cases name)
      | .ok (_, some none), _ => .ok r
      | .ok (name, some (some node)), hcase =>
        have := hcase rfl
        have := depth_variantPayload_le tag v
        r.inside (.variant name) fun r => visit h node (variantPayload tag v) r
termination_by (v.depth, sizeOf node, 0)
decreasing_by
  all_goals first
    | decreasing_tactic
    | (simp_wf; simp only [Prod.lex_def]; omega)

/-- Walks a value with a node that may be missing. -/
def visitInner (h : Host) (node : Option Node) (v : Value) (r : Recorder) : Except Fault Recorder :=
  match node with
  | none => .ok r
  | some node => visit h node v r
termination_by (v.depth, sizeOf node, 0)

/-- Walks elements from a position on. -/
def visitItems (h : Host) (node : Node) (items : List Value) (position : Nat) (r : Recorder) :
    Except Fault Recorder :=
  match items with
  | [] => .ok r
  | x :: rest =>
    match r.inside (.index position) fun r => visit h node x r with
    | .error f => .error f
    | .ok r => visitItems h node rest (position + 1) r
termination_by (Value.depthItems items, sizeOf node, items.length + 1)
decreasing_by
  all_goals
    simp_wf
    simp only [Prod.lex_def, Value.depthItems, true_and]
    omega

/-- Walks the keys and the values of entries. -/
def visitEntries (h : Host) (keys inner : Option Node) (entries : List (Value × Value)) (r : Recorder) :
    Except Fault Recorder :=
  match entries with
  | [] => .ok r
  | (k, v) :: rest =>
    let walked := r.inside (.key k) fun r =>
      match visitInner h keys k r with
      | .error f => .error f
      | .ok r => visitInner h inner v r
    match walked with
    | .error f => .error f
    | .ok r => visitEntries h keys inner rest r
termination_by (Value.depthEntries entries, sizeOf keys + sizeOf inner, entries.length + 1)
decreasing_by
  all_goals
    simp_wf
    simp only [Prod.lex_def, Value.depthEntries, true_and]
    omega

/-- Walks the fields of a value. -/
def visitFields (h : Host) (v : Value) (hv : ¬v.isAbsent = true) (fields : List (Value × Node))
    (r : Recorder) : Except Fault Recorder :=
  match fields with
  | [] => .ok r
  | (name, node) :: rest =>
    let walked := r.inside (FieldSpec.segmentOf name) fun r =>
      match v.field name, @Value.depth_field_lt v name with
      | .error f, _ => .error f
      | .ok w, hw =>
        have := hw (Value.depth_pos_of_present hv) rfl
        visit h node w r
    match walked with
    | .error f => .error f
    | .ok r => visitFields h v hv rest r
termination_by (v.depth, 0, fields.length + 1)

end

namespace Schema

/-- Walks the fields of a value that is present, then the checks of the value as a whole. -/
def collect (s : Schema) (h : Host) (v : Value) (hv : ¬v.isAbsent = true) (r : Recorder) :
    Except Fault Recorder :=
  (visitFields h v hv s.fields r).map (BoundRule.applyAll h s.checks v)

/-- Validates a value by a schema. -/
def validate (s : Schema) (h : Host) (v : Value) : Except Fault Report :=
  if hv : v.isAbsent = true then .ok (Report.of v [.required])
  else (s.collect h v hv .empty).map fun r => r.build v

end Schema

/-- Validates a value by a node. -/
def Node.validate (node : Node) (h : Host) (v : Value) : Except Fault Report :=
  (visit h node v .empty).map fun r => r.build v

end Conform
