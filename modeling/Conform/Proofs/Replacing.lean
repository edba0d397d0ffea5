import Conform.Schema.Survey

/-!
Other nodes in the same places. What a survey asks of a value it asks by names: the names of the fields say whether a
value can hold them, and those of the cases say which one is selected and how a failed selection reads. So when the
rules and the nodes of a node are replaced and its names stay, its surveys are the same surveys with the new rules,
and they go on with the new nodes (`Replacement.Of.survey_eq`).
-/

namespace Conform

/-! ### What names decide -/

section Names
variable {v : Value}

theorem Value.hasSomeField_congr : ∀ {fields fields' : List (Value × Node)},
    fields'.map Prod.fst = fields.map Prod.fst → v.hasSomeField fields' = v.hasSomeField fields
  | [], fields', names => by rw [List.map_eq_nil_iff.mp names]
  | (name, node) :: rest, fields', names => by
    obtain ⟨field, rest', rfl, same, names⟩ := List.map_eq_cons_iff.mp names
    rw [Value.hasSomeField, Value.hasSomeField, Value.hasSomeField_congr names, same]

/-- Whether a value can hold the fields of a schema depends on their names and on the class that it is for. -/
theorem Value.canHold_congr {s s' : Schema} (names : s'.fieldNames = s.fieldNames)
    (targetType : s'.targetType = s.targetType) : v.canHold s' = v.canHold s := by
  have empty : s'.fields.isEmpty = s.fields.isEmpty := by
    rw [← List.isEmpty_map (f := Prod.fst), ← List.isEmpty_map (l := s.fields) (f := Prod.fst)]
    exact congrArg List.isEmpty names
  unfold Value.canHold
  rw [empty, targetType, Value.hasSomeField_congr names]

variable {cases cases' : List (Value × Option Node)} (names : cases'.map Prod.fst = cases.map Prod.fst)
include names

theorem Violation.wrongVariant_congr (actual problem : String) :
    wrongVariant cases' actual problem = wrongVariant cases actual problem := by
  unfold wrongVariant
  rw [names]

theorem Violation.undetermined_congr (f : Fault) : undetermined cases' f = undetermined cases f :=
  wrongVariant_congr names _ _

theorem Violation.unknownVariant_congr (name : Value) : unknownVariant cases' name = unknownVariant cases name :=
  wrongVariant_congr names _ _

theorem Survey.position_congr (name : Value) : position name cases' = position name cases := by
  have by_name (cases : List (Value × Option Node)) :
      position name cases = (cases.map Prod.fst).findIdx fun n => Value.same n name := by
    rw [List.findIdx_map]
    rfl
  rw [by_name, by_name, names]

end Names

/-- The name that a case is selected by, which no case has a part in. -/
def selectedName (h : Host) (tag v : Value) : Except Fault Value := (selectCase h tag v []).map Prod.fst

theorem selectCase_eq (h : Host) (tag v : Value) (cases : List (Value × Option Node)) :
    selectCase h tag v cases = (selectedName h tag v).map fun name => (name, Value.lookup? name cases) := by
  unfold selectedName selectCase
  rcases variantName h tag v with f | outcome
  · rfl
  · cases outcome with
    | report r => rfl
    | value name =>
      simp only [bind, Except.bind]
      cases name.requireKey <;> rfl

/-! ### Entries -/

namespace Value
variable {α β : Type}

/-- What is made of each entry, by its position, under the same names. -/
def reassign (f : Nat → α → β) (entries : List (Value × α)) : List (Value × β) :=
  entries.mapIdx fun i e => (e.1, f i e.2)

theorem reassign_cons (f : Nat → α → β) (e : Value × α) (rest : List (Value × α)) :
    reassign f (e :: rest) = (e.1, f 0 e.2) :: reassign (fun i => f (i + 1)) rest := List.mapIdx_cons

theorem reassign_const (f : α → β) (entries : List (Value × α)) :
    reassign (fun _ => f) entries = entries.map fun e => (e.1, f e.2) := by
  induction entries with
  | nil => rfl
  | cons e rest ih => rw [reassign_cons, ih, List.map_cons]

@[simp] theorem names_reassign (f : Nat → α → β) (entries : List (Value × α)) :
    (reassign f entries).map Prod.fst = entries.map Prod.fst := by
  induction entries generalizing f with
  | nil => rfl
  | cons e rest ih => rw [reassign_cons, List.map_cons, List.map_cons, ih]

theorem lookup?_reassign (key : Value) (f : Nat → α → β) (entries : List (Value × α)) :
    lookup? key (reassign f entries)
      = (lookup? key entries).map (f (entries.findIdx fun e => same e.1 key)) := by
  induction entries generalizing f with
  | nil => rfl
  | cons e rest ih =>
    obtain ⟨name, a⟩ := e
    rw [reassign_cons, lookup?, lookup?, ih, List.findIdx_cons]
    cases same name key <;> rfl

theorem lookup?_map (key : Value) (f : α → β) (entries : List (Value × α)) :
    lookup? key (entries.map fun (k, a) => (k, f a)) = (lookup? key entries).map f :=
  (congrArg (lookup? key) (reassign_const f entries)).symm.trans (lookup?_reassign key _ entries)

end Value

/-! ### Replacing rules and nodes -/

/-- Other rules and checks, and other nodes to go on with, by the turn that leads to them. No rules are replaced by
none. -/
structure Replacement where
  rules : List BoundRule → List BoundRule
  checks : List BoundRule → List BoundRule
  node : Turn → Node → Node
  rules_nil : rules [] = []
  checks_nil : checks [] = []

attribute [simp] Replacement.rules_nil Replacement.checks_nil

def Branch.replace (r : Replacement) (b : Branch) : Branch := { b with node := r.node b.turn b.node }

/-- A survey with the rules and the nodes of a replacement. -/
def Survey.replace (r : Replacement) (s : Survey) : Survey :=
  { s with
    rules := r.rules s.rules
    branches := s.branches.map (Branch.replace r)
    checks := r.checks s.checks }

/-- A schema against the same schema with the checks of a replacement, whose fields have its nodes. -/
structure Replacement.OfSchema (r : Replacement) (s s' : Schema) : Prop where
  name : s'.name = s.name
  targetType : s'.targetType = s.targetType
  fields : s'.fields = Value.reassign (fun i => r.node (.field i)) s.fields
  checks : s'.checks = r.checks s.checks

/-- A node against the same node with the rules and the nodes of a replacement. A structure goes on with the nodes of
a schema, so there it is the schema that they are replaced in. -/
inductive Replacement.Of (r : Replacement) (h h' : Host) : Node → Node → Prop where
  | scalar (rules : List BoundRule) (type : Value) : r.Of h h' (.scalar rules type) (.scalar (r.rules rules) type)
  | wrapper (w : Wrapper) (rules : List BoundRule) (inner keys : Option Node) :
    r.Of h h' (.wrapper w rules inner keys)
      (.wrapper w (r.rules rules) (inner.map (r.node .inner)) (keys.map (r.node .keys)))
  | nested (rules : List BoundRule) {target target' : Target} {S : Schema → Schema}
    (schemas : h'.requireSchema target' = (h.requireSchema target).map S)
    (each : ∀ s, h.requireSchema target = .ok s → r.OfSchema s (S s)) :
    r.Of h h' (.nested rules target) (.nested (r.rules rules) target')
  | variants (rules : List BoundRule) (cases : List (Value × Option Node)) (tag : Value) :
    r.Of h h' (.variants rules cases tag)
      (.variants (r.rules rules) (Value.reassign (fun i => Option.map (r.node (.case i))) cases) tag)

section Replacing
variable {r : Replacement} {h h' : Host} {v : Value}

theorem Branch.toward_replace (way : Path) (turn : Turn) (node : Option Node) :
    Branch.toward way turn (node.map (r.node turn)) v = (Branch.toward way turn node v).map (Branch.replace r) := by
  cases node <;> rfl

theorem Schema.fieldBranches_replace (fields : List (Value × Node)) :
    Schema.fieldBranches v (Value.reassign (fun i => r.node (.field i)) fields) 0
      = (Schema.fieldBranches v fields 0).map (Branch.replace r) := by
  refine List.ext_getElem? fun i => ?_
  simp only [Schema.fieldBranches, Value.reassign, List.getElem?_map, List.getElem?_zipIdx, List.getElem?_mapIdx,
    Nat.zero_add]
  cases fields[i]? <;> rfl

namespace Replacement.OfSchema
variable {s s' : Schema}

theorem fieldNames (of : r.OfSchema s s') : s'.fieldNames = s.fieldNames := by
  rw [Schema.fieldNames, of.fields, Value.names_reassign]
  rfl

theorem canHold (of : r.OfSchema s s') : v.canHold s' = v.canHold s := Value.canHold_congr of.fieldNames of.targetType

theorem survey_eq (of : r.OfSchema s s') : s'.survey v = (s.survey v).replace r := by
  by_cases hv : v.isAbsent = true
  · simp [Schema.survey, hv, Survey.replace]
  · simp [Schema.survey, hv, Survey.replace, of.fields, of.checks, Schema.fieldBranches_replace]

end Replacement.OfSchema

namespace Survey

theorem sequence_replace (rules : List BoundRule) (inner : Option Node) :
    sequence (r.rules rules) (inner.map (r.node .inner)) v = (sequence rules inner v).replace r := by
  unfold sequence
  cases v.elements? with
  | none => simp [replace]
  | some items => simp [replace, List.map_flatMap, Branch.toward_replace]

theorem mapping_replace (rules : List BoundRule) (inner keys : Option Node) :
    mapping (r.rules rules) (inner.map (r.node .inner)) (keys.map (r.node .keys)) v
      = (mapping rules inner keys v).replace r := by
  unfold mapping
  cases v.entries? with
  | none => simp [replace]
  | some entries => simp [replace, List.map_flatMap, Branch.toward_replace]

theorem structured_replace (rules : List BoundRule) {target target' : Target} {S : Schema → Schema}
    (schemas : h'.requireSchema target' = (h.requireSchema target).map S)
    (each : ∀ s, h.requireSchema target = .ok s → r.OfSchema s (S s)) :
    structured h' (r.rules rules) target' v = (structured h rules target v).map (replace r) := by
  unfold structured
  rw [schemas]
  cases found : h.requireSchema target with
  | error f => rfl
  | ok s =>
    have of := each s found
    simp only [Except.map, of.canHold, of.name]
    cases v.canHold s with
    | error f => rfl
    | ok holds =>
      cases holds with
      | false => simp [replace]
      | true => simp [of.survey_eq, replace]

theorem choice_replace (calls : ∀ tag, variantName h' tag v = variantName h tag v) (rules : List BoundRule)
    (cases : List (Value × Option Node)) (tag : Value) :
    choice h' (r.rules rules) (Value.reassign (fun i => Option.map (r.node (.case i))) cases) tag v
      = (choice h rules cases tag v).map (replace r) := by
  have names := Value.names_reassign (fun i => Option.map (r.node (.case i))) cases
  have same_name : selectedName h' tag v = selectedName h tag v := by
    rw [selectedName, selectedName, selectCase, selectCase, calls]
  unfold choice
  rw [selectCase_eq, selectCase_eq, same_name]
  rcases selectedName h tag v with f | name
  · simp only [Except.map, Violation.undetermined_congr names]
    cases Violation.undetermined cases f <;> simp [replace]
  · simp only [Except.map, Value.lookup?_reassign]
    rcases Value.lookup? name cases with _ | node
    · simp only [Option.map_none, Violation.unknownVariant_congr names]
      cases Violation.unknownVariant cases name <;> simp [replace]
    · simp only [Option.map_some, position_congr names, replace, r.checks_nil, ← Branch.toward_replace]
      rfl

end Survey

/-- Replacing rules and nodes replaces them in every survey, and changes nothing else. -/
theorem Replacement.Of.survey_eq {node node' : Node} (of : r.Of h h' node node')
    (calls : ∀ tag, variantName h' tag v = variantName h tag v) :
    node'.survey h' v = (node.survey h v).map (Survey.replace r) := by
  by_cases hv : v.isAbsent = true
  · rw [Node.survey_absent hv, Node.survey_absent hv]
    cases of with
    | wrapper w => cases w <;> simp [Node.surveyAbsent, Survey.replace, Except.map]
    | _ => simp [Node.surveyAbsent, Survey.replace, Except.map]
  · rw [Node.survey_present hv, Node.survey_present hv]
    cases of with
    | scalar rules type =>
      simp only [Node.surveyPresent]
      rcases v.fits type with f | fits
      · rfl
      · cases fits <;> simp [Survey.replace, Except.map]
    | wrapper w rules inner keys => cases w with
      | optional => simp [Node.surveyPresent, Survey.replace, Except.map, Branch.toward_replace]
      | sequence => exact congrArg Except.ok (Survey.sequence_replace rules inner)
      | mapping => exact congrArg Except.ok (Survey.mapping_replace rules inner keys)
    | nested rules schemas each => exact Survey.structured_replace rules schemas each
    | variants rules cases tag => exact Survey.choice_replace calls rules cases tag

end Replacing

end Conform
