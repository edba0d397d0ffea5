import Conform.Schema.Walk

/-!
Visiting against the reference. The walk is read kind by kind, each equation in the order in which the
violations come, and a visit is compared with it at every path: the recorder keeps its path, keeps
what it holds, and gains what the walk finds, moved under the path.
-/

namespace Conform

/-! ### The reference, kind by kind -/

section Kinds
variable {h : Host} {rules : List BoundRule} {v : Value}

/-- An absent value is one violation, and none for an optional node. -/
theorem walk_of_absent {node : Node} (hv : v.isAbsent = true) :
    walk h node v = .ok node.surveyAbsent.own.toList := by
  rw [walk_eq, Node.survey_absent hv]
  change node.surveyAbsent.walk h v = .ok node.surveyAbsent.own.toList
  unfold Node.surveyAbsent
  split <;> rfl

/-- A scalar is its rules, or one violation when the value is of another class. -/
theorem walk_scalar {type : Value} (hv : ¬v.isAbsent = true) :
    walk h (.scalar rules type) v = (v.fits type).map fun fits =>
      if fits then BoundRule.violationsAll h rules v else [.wrongType (.text type.typeLabel) v] := by
  rw [walk_eq, Node.survey_present hv]
  dsimp only [Node.surveyPresent]
  cases v.fits type with
  | error f => rfl
  | ok fits => cases fits <;> simp [Survey.walk, Survey.gather, andThen, Except.map, BoundRule.violationsAll]

/-- What a survey without a violation or checks of its own finds: its rules, then its branches. -/
theorem Survey.walk_of_branches (branches : List Branch) :
    ({ rules, branches } : Survey).walk h v
      = andThen (.ok (BoundRule.violationsAll h rules v)) (walkBranches h branches) := by
  simp [Survey.walk, Survey.gather, BoundRule.violationsAll]

/-- A present optional value is its rules, then the inner node at the same place. -/
theorem walk_optional {node : Node} {keys : Option Node} (hv : ¬v.isAbsent = true) :
    walk h (.wrapper .optional rules (some node) keys) v
      = andThen (.ok (BoundRule.violationsAll h rules v)) (walk h node v) := by
  rw [walk_eq, Node.survey_present hv]
  exact (Survey.walk_of_branches _).trans (by rw [walkBranches_toward, inward_nil])

/-- A sequence is its rules, then every element under its position. -/
theorem walk_sequence {node : Node} {keys : Option Node} {items : List Value} (hv : ¬v.isAbsent = true)
    (hitems : v.elements? = some items) :
    walk h (.wrapper .sequence rules (some node) keys) v
      = andThen (.ok (BoundRule.violationsAll h rules v))
          (inTurn (items.zipIdx.map fun (x, i) => inward [.index i] (walk h node x))) := by
  rw [walk_eq, Node.survey_present hv]
  simp only [Node.surveyPresent, Survey.sequence, hitems, Survey.walk_of_branches]
  congr 1
  induction items.zipIdx with
  | nil => rfl
  | cons item rest ih => rw [List.flatMap_cons, walkBranches_append, walkBranches_toward, ih]; rfl

/-- A mapping is its rules, then every entry under its key: first the key, if something is said of it, then the
value. -/
theorem walk_mapping {inner : Node} {keys : Option Node} {kind : MappingKind} {entries : List (Value × Value)} :
    walk h (.wrapper .mapping rules (some inner) keys) (.mapping kind entries)
      = andThen (.ok (BoundRule.violationsAll h rules (.mapping kind entries)))
          (inTurn (entries.map fun (k, x) => inward [.key k] (match keys with
            | none => walk h inner x
            | some keys => andThen (walk h keys k) (walk h inner x)))) := by
  rw [walk_eq, Node.survey_present (by simp [Value.isAbsent])]
  simp only [Node.surveyPresent, Survey.mapping, Value.entries?, Survey.walk_of_branches]
  congr 1
  induction entries with
  | nil => rfl
  | cons entry rest ih =>
    rw [List.flatMap_cons, walkBranches_append, walkBranches_append, walkBranches_toward, ih]
    cases keys with
    | none => exact congrArg (andThen · _) (andThen_ok_nil _)
    | some keys =>
      rw [walkBranches_toward, ← inward_andThen]
      rfl

/-- A structure is its rules, then the fields and the checks of its schema. -/
theorem walk_nested {target : Target} {s : Schema} (hv : ¬v.isAbsent = true) (hs : h.targetSchema? target = some s)
    (hold : v.canHold s = .ok true) :
    walk h (.nested rules target) v = andThen (.ok (BoundRule.violationsAll h rules v)) (s.walk h v) := by
  rw [walk_eq, Node.survey_present hv]
  simp only [Node.surveyPresent, Survey.structured, Host.requireSchema_eq_ok.mpr hs, hold]
  simp [Except.map, Schema.walk, Survey.walk, Survey.gather, Schema.survey_present hv, BoundRule.violationsAll]

/-- A choice is its rules, then the payload of the selected case under the name of the variant. -/
theorem walk_variants {cases : List (Value × Option Node)} {tag name : Value} {node : Node} (hv : ¬v.isAbsent = true)
    (hs : selectCase h tag v cases = .ok (name, some (some node))) :
    walk h (.variants rules cases tag) v
      = andThen (.ok (BoundRule.violationsAll h rules v))
          (inward [.variant name] (walk h node (variantPayload tag v))) := by
  rw [walk_eq, Node.survey_present hv]
  simp only [Node.surveyPresent, Survey.choice, hs, Survey.walk_of_branches, walkBranches_toward]

end Kinds

/-! ### The reference, field by field -/

/-- The fields of a value in turn, each as seen from the value, wherever the first of them stands. -/
theorem walkBranches_fields (h : Host) (v : Value) (fields : List (Value × Node)) (position : Nat) :
    walkBranches h (Schema.fieldBranches v fields position)
      = inTurn (fields.map fun f => inward [FieldSpec.segmentOf f.1] ((v.field f.1).bind (walk h f.2))) := by
  induction fields generalizing position with
  | nil => rfl
  | cons f rest ih =>
    obtain ⟨name, node⟩ := f
    have later := ih (position + 1)
    rw [Schema.fieldBranches] at later ⊢
    rw [List.zipIdx_cons, List.map_cons, walkBranches_cons, later, List.map_cons, inTurn, walkBranch]
    dsimp only
    cases v.field name <;> rfl

/-! ### Visiting -/

/-- Visiting leaves the path as it is and adds to what is held exactly what validating on its own
reports, under the path; and what that reports is what the reference finds. -/
theorem visit_refines_walk (h : Host) (node : Node) (v : Value) (r : Recorder) :
    visit h node v r = (node.validate h v).map (fun report =>
        ⟨r.violations ++ report.violations.map (Violation.under r.path), r.path⟩)
      ∧ node.validate h v = (walk h node v).map (Report.of v) := by
  have reference := Node.validate_eq_walk node h v
  refine ⟨?_, reference⟩
  rw [visit_eq_walk, reference]
  cases walk h node v <;> rfl

end Conform
