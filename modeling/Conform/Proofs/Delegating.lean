import Conform.Proofs.Numbering
import Conform.Proofs.Reference
import Conform.Session.Operations

/-!
Delegating to a schema. A function of the program may validate what it is given by the schema that is its parameter
and give back the report; a rule with such a function then finds, in a value that can hold the fields of the schema,
exactly what a structure of the schema finds. The report of the rule is made on its own, at the root of the value, and
adopted where the value stands, while a structure is walked where it stands: both come to the same at every level, so
delegations may be turned into structures anywhere, below fields, elements, entries and payloads, and inside the
schemas that are themselves delegated to (`Inlined.walk_eq`).
-/

namespace Conform

/-- A function that hands a value over to the schema that is its parameter, as the schema's own method does. -/
def Host.Delegates (h : Host) (g : Value) : Prop :=
  ∀ (method? : DeclaredClass → Option ValidateMethod) (v p : Value) (s : Schema),
    p.isOf .schema = true → h.schemaObject p.serial = some s →
      h.callValue g [v, p] = validateMethod h method? p [v]

/-- Two schemas that differ in the nodes of their fields only. -/
structure Schema.Alike (s s' : Schema) (fields : List (Value × Node × Node)) : Prop where
  left : s.fields = fields.map (Prod.map id Prod.fst)
  right : s'.fields = fields.map (Prod.map id Prod.snd)
  name : s'.name = s.name
  checks : s'.checks = s.checks
  targetType : s'.targetType = s.targetType

/-- Two nodes of which the second is the first with delegations turned into structures, as far as validation takes
them into a value. A delegation may be turned wherever there is no value, or one that can hold the fields and that
the schema says something of; the schema of the structure may again have delegations of the other turned. -/
inductive Inlined (h : Host) (g : Value) : Node → Node → Value → Prop where
  | same {node v} : Inlined h g node node v
  | delegation {f p target s s' fields v} (custom : f.check = .custom g) (object : p.isOf .schema = true)
      (known : h.schemaObject p.serial = some s) (found : h.targetSchema? target = some s') (alike : s.Alike s' fields)
      (holds : ¬v.isAbsent = true → v.canHold s = .ok true)
      (returns : ¬v.isAbsent = true → ∃ report, s.validate h v = .ok report)
      (below : ∀ e ∈ fields, ∀ x, v.field e.1 = .ok x → Inlined h g e.2.1 e.2.2 x) :
      Inlined h g (.scalar [⟨f, p⟩] .absent) (.nested [] target) v
  | optional {rules m m' keys v} (below : Inlined h g m m' v) :
      Inlined h g (.wrapper .optional rules (some m) keys) (.wrapper .optional rules (some m') keys) v
  | sequence {rules m m' keys v} (below : ∀ items x, v.elements? = some items → x ∈ items → Inlined h g m m' x) :
      Inlined h g (.wrapper .sequence rules (some m) keys) (.wrapper .sequence rules (some m') keys) v
  | mapping {rules v} {inner keys : Option (Node × Node)}
      (onKeys : ∀ entries k x ms, v.entries? = some entries → (k, x) ∈ entries → keys = some ms →
        Inlined h g ms.1 ms.2 k)
      (onValues : ∀ entries k x ms, v.entries? = some entries → (k, x) ∈ entries → inner = some ms →
        Inlined h g ms.1 ms.2 x) :
      Inlined h g (.wrapper .mapping rules (inner.map Prod.fst) (keys.map Prod.fst))
        (.wrapper .mapping rules (inner.map Prod.snd) (keys.map Prod.snd)) v
  | nested {rules target target' s s' fields v} (left : h.targetSchema? target = some s)
      (right : h.targetSchema? target' = some s') (alike : s.Alike s' fields)
      (below : ∀ e ∈ fields, ∀ x, v.field e.1 = .ok x → Inlined h g e.2.1 e.2.2 x) :
      Inlined h g (.nested rules target) (.nested rules target') v
  | variants {rules tag v} {cases : List (Value × Option (Node × Node))}
      (below : ∀ name ms, Value.lookup? name cases = some (some ms) →
        selectCase h tag v (cases.map (Prod.map id (Option.map Prod.fst))) = .ok (name, some (some ms.1)) →
          Inlined h g ms.1 ms.2 (variantPayload tag v)) :
      Inlined h g (.variants rules (cases.map (Prod.map id (Option.map Prod.fst))) tag)
        (.variants rules (cases.map (Prod.map id (Option.map Prod.snd))) tag) v

/-! ### A delegation -/

section Delegation
variable {h : Host} {g p v : Value} {f : ConstraintFunction} {s : Schema}

theorem validateMethod_schema (object : p.isOf .schema = true) (known : h.schemaObject p.serial = some s)
    (method? : DeclaredClass → Option ValidateMethod) :
    validateMethod h method? p [v] = (s.validate h v).map .report := by
  cases p with
  | record head attributes =>
    have no_node : Node.ofObject? h.schemaObject (.record head attributes) = none := by
      have : head.cls = .schema := by simpa [Value.isOf] using object
      rw [Node.ofObject?]
      simp [Value.isOf, this]
    have target : Target.ofObject h.schemaObject (.record head attributes) = .schema s := by
      rw [Target.ofObject, if_pos object, known]
    simp only [validateMethod, no_node, target]
  | _ => cases object

/-- A rule that delegates finds what the schema finds, when it finds anything at all. -/
theorem violations_delegated (delegates : h.Delegates g) (custom : f.check = .custom g) (object : p.isOf .schema = true)
    (known : h.schemaObject p.serial = some s) {vs : List Violation} (walks : s.walk h v = .ok vs) :
    BoundRule.violations h ⟨f, p⟩ v = vs := by
  have called : h.callValue g [v, p] = .ok (.report (.of v vs)) := by
    rw [delegates (fun _ => none) v p s object known, validateMethod_schema object known,
      Schema.validate_eq_walk, walks]
    rfl
  simp only [BoundRule.violations, ConstraintFunction.evaluate, custom, called, ConstraintFunction.verdictOf]
  cases vs <;> rfl

/-- What a delegation finds in a value that is present. -/
theorem walk_delegated (delegates : h.Delegates g) (custom : f.check = .custom g) (object : p.isOf .schema = true)
    (known : h.schemaObject p.serial = some s) (hv : ¬v.isAbsent = true)
    (returns : ∃ report, s.validate h v = .ok report) : walk h (.scalar [⟨f, p⟩] .absent) v = s.walk h v := by
  obtain ⟨report, hreport⟩ := returns
  rw [Schema.validate_eq_walk] at hreport
  obtain ⟨vs, walks, -⟩ := Except.map_eq_ok.mp hreport
  have found := violations_delegated delegates custom object known walks
  rw [walk_scalar hv, walks]
  simp [Value.fits, Except.map, BoundRule.violationsAll, found]

end Delegation

/-! ### Walking alike -/

section Alike
variable {h : Host} {v : Value}

theorem walk_of_survey {n n' : Node} (same : n.survey h v = n'.survey h v) : walk h n v = walk h n' v := by
  rw [walk_eq, walk_eq, same]

/-- Nodes that say the same of an absent value walk alike when they do so in a value that is present. -/
theorem walk_of_present {n n' : Node} (absent : n.surveyAbsent = n'.surveyAbsent)
    (present : ¬v.isAbsent = true → walk h n v = walk h n' v) : walk h n v = walk h n' v := by
  by_cases hv : v.isAbsent = true
  · rw [walk_of_absent hv, walk_of_absent hv, absent]
  · exact present hv

/-- Surveys that differ in their branches walk alike when what the branches lead to is found alike. -/
theorem Survey.walk_congr {rules checks : List BoundRule} {own : Option Violation} {branches branches' : List Branch}
    (same : walkBranches h branches = walkBranches h branches') :
    (Survey.mk rules own branches checks).walk h v = (Survey.mk rules own branches' checks).walk h v :=
  congrArg (Survey.gather (.mk rules own [] checks) h v) same

theorem walkBranches_flatMap {α : Type} (f : α → List Branch) (xs : List α) :
    walkBranches h (xs.flatMap f) = inTurn (xs.map fun x => walkBranches h (f x)) := by
  induction xs with
  | nil => rfl
  | cons x xs ih => rw [List.flatMap_cons, walkBranches_append, ih]; rfl

theorem walkBranches_flatMap_congr {α : Type} {f f' : α → List Branch} {xs : List α}
    (same : ∀ x ∈ xs, walkBranches h (f x) = walkBranches h (f' x)) :
    walkBranches h (xs.flatMap f) = walkBranches h (xs.flatMap f') := by
  rw [walkBranches_flatMap, walkBranches_flatMap, List.map_congr_left same]

theorem walkBranches_toward_congr {way : Path} {turn turn' : Turn} {nodes : Option (Node × Node)}
    (same : ∀ ms, nodes = some ms → walk h ms.1 v = walk h ms.2 v) :
    walkBranches h (Branch.toward way turn (nodes.map Prod.fst) v)
      = walkBranches h (Branch.toward way turn' (nodes.map Prod.snd) v) := by
  cases nodes with
  | none => rfl
  | some ms => rw [Option.map_some, Option.map_some, walkBranches_toward, walkBranches_toward, same ms rfl]

namespace Schema.Alike
variable {s s' : Schema} {fields : List (Value × Node × Node)}

theorem canHold (alike : s.Alike s' fields) : v.canHold s' = v.canHold s := by
  refine Value.canHold_congr ?_ alike.targetType
  rw [Schema.fieldNames, Schema.fieldNames, alike.left, alike.right, List.map_map, List.map_map]
  rfl

/-- The schemas find the same when the nodes of each field do. -/
theorem walk (alike : s.Alike s' fields) (hv : ¬v.isAbsent = true)
    (below : ∀ e ∈ fields, ∀ x, v.field e.1 = .ok x → Conform.walk h e.2.1 x = Conform.walk h e.2.2 x) :
    s.walk h v = s'.walk h v := by
  rw [Schema.walk, Schema.walk, Schema.survey_present hv, Schema.survey_present hv, alike.checks]
  refine Survey.walk_congr ?_
  rw [walkBranches_fields, walkBranches_fields, alike.left, alike.right, List.map_map, List.map_map]
  refine congrArg inTurn (List.map_congr_left fun e he => ?_)
  change inward _ ((v.field e.1).bind _) = inward _ ((v.field e.1).bind _)
  cases found : v.field e.1 with
  | error f => rfl
  | ok x => exact congrArg (inward _) (below e he x found)

end Schema.Alike

theorem names_side (cases : List (Value × Option (Node × Node))) (side : Node × Node → Node) :
    (cases.map (Prod.map id (Option.map side))).map Prod.fst = cases.map Prod.fst := by
  rw [List.map_map]
  rfl

/-- Either side of a list of pairs selects by the same name, and finds its side of what stands there. -/
theorem selectCase_side {tag : Value} (cases : List (Value × Option (Node × Node))) (side : Node × Node → Node) :
    selectCase h tag v (cases.map (Prod.map id (Option.map side)))
      = (selectedName h tag v).map fun name => (name, (Value.lookup? name cases).map (Option.map side)) := by
  have looked (name : Value) : Value.lookup? name (cases.map (Prod.map id (Option.map side)))
      = (Value.lookup? name cases).map (Option.map side) := Value.lookup?_map name (Option.map side) cases
  simp only [selectCase_eq, looked]

end Alike

/-! ### Turning delegations into structures -/

section Inlining
variable {h : Host} {g : Value}

/-- Turning delegations into structures changes nothing that is found. -/
theorem Inlined.walk_eq {n n' : Node} {v : Value} (delegates : h.Delegates g) (inlined : Inlined h g n n' v) :
    walk h n v = walk h n' v := by
  -- What two nodes of one kind say of nothing is the same, so every case is about a value that is present.
  induction inlined with
  | same => rfl
  | @delegation f p target s s' fields v custom object known found alike holds returns below ih =>
    refine walk_of_present rfl fun hv => ?_
    have hold : v.canHold s' = .ok true := alike.canHold.trans (holds hv)
    rw [walk_delegated delegates custom object known hv (returns hv), walk_nested hv found hold, alike.walk hv ih,
      BoundRule.violationsAll, List.flatMap_nil, andThen_ok_nil]
  | @optional rules m m' keys v below ih =>
    refine walk_of_present rfl fun hv => ?_
    rw [walk_optional hv, walk_optional hv, ih]
  | @sequence rules m m' keys v below ih =>
    refine walk_of_present rfl fun hv => ?_
    cases hitems : v.elements? with
    | none =>
      refine walk_of_survey ?_
      simp only [Node.survey_present hv, Node.surveyPresent, Survey.sequence, hitems]
    | some items =>
      rw [walk_sequence hv hitems, walk_sequence hv hitems]
      refine congrArg (andThen _) (congrArg inTurn (List.map_congr_left fun e he => ?_))
      exact congrArg (inward _) (ih items e.1 hitems (List.fst_mem_of_mem_zipIdx he))
  | @mapping rules v inner keys onKeys onValues ihKeys ihValues =>
    refine walk_of_present rfl fun hv => ?_
    simp only [Conform.walk_eq, Node.survey_present hv, Node.surveyPresent, Survey.mapping]
    cases hentries : v.entries? with
    | none => rfl
    | some entries =>
      refine Survey.walk_congr (walkBranches_flatMap_congr fun e he => ?_)
      rw [walkBranches_append, walkBranches_append,
        walkBranches_toward_congr fun ms hms => ihKeys entries e.1 e.2 ms hentries he hms,
        walkBranches_toward_congr fun ms hms => ihValues entries e.1 e.2 ms hentries he hms]
  | @nested rules target target' s s' fields v left right alike below ih =>
    refine walk_of_present rfl fun hv => ?_
    cases hold : v.canHold s with
    | ok holds => cases holds with
      | true =>
        rw [walk_nested hv left hold, walk_nested hv right (alike.canHold.trans hold), alike.walk hv ih]
      | false =>
        refine walk_of_survey ?_
        simp only [Node.survey_present hv, Node.surveyPresent, Survey.structured, Host.requireSchema_eq_ok.mpr left,
          Host.requireSchema_eq_ok.mpr right, alike.canHold, hold, alike.name]
        rfl
    | error fault =>
      refine walk_of_survey ?_
      simp only [Node.survey_present hv, Node.surveyPresent, Survey.structured, Host.requireSchema_eq_ok.mpr left,
        Host.requireSchema_eq_ok.mpr right, alike.canHold, hold]
      rfl
  | @variants rules tag v cases below ih =>
    refine walk_of_present rfl fun hv => ?_
    -- The texts of a failed selection name the cases, and both lists have the same names.
    have names := (names_side cases Prod.snd).trans (names_side cases Prod.fst).symm
    simp only [Conform.walk_eq, Node.survey_present hv, Node.surveyPresent, Survey.choice, selectCase_side]
    cases named : selectedName h tag v with
    | error f => simp only [Except.map, Violation.undetermined_congr names]
    | ok name => cases found : Value.lookup? name cases with
      | none => simp only [Except.map, found, Option.map_none, Violation.unknownVariant_congr names]
      | some payload =>
        simp only [Except.map, found, Option.map_some]
        refine Survey.walk_congr (walkBranches_toward_congr fun ms hms => ?_)
        subst hms
        have selected : selectCase h tag v (cases.map (Prod.map id (Option.map Prod.fst)))
            = .ok (name, some (some ms.1)) := by
          rw [selectCase_side, named, Except.map, found]
          rfl
        exact ih name ms found selected

end Inlining

/-- Delegating to a schema is nesting it. Where a value that is present can hold the fields of a schema, and the
schema says something of it, a rule that hands it over to the schema and a structure of the schema find the same
violations, in order, with the same details and paths, wherever the value stands. The same holds when delegations are
turned into structures anywhere below a node, to any depth and in the schemas that are delegated to themselves, and
when they are turned in the fields of a schema. -/
theorem delegating_is_nesting {h : Host} {g : Value} (delegates : h.Delegates g) :
    (∀ (f : ConstraintFunction) (p : Value) (target : Target) (s : Schema) (v : Value) (report : Report),
      f.check = .custom g → p.isOf .schema = true → h.schemaObject p.serial = some s →
      h.targetSchema? target = some s → ¬v.isAbsent = true → v.canHold s = .ok true → s.validate h v = .ok report →
        ∀ r, visit h (.scalar [⟨f, p⟩] .absent) v r = .ok (r.adopt report.violations) ∧
          visit h (.nested [] target) v r = .ok (r.adopt report.violations)) ∧
    (∀ n n' v, Inlined h g n n' v → ∀ r, visit h n v r = visit h n' v r) ∧
    ∀ s s' fields v, Schema.Alike s s' fields →
      (∀ e ∈ fields, ∀ x, v.field e.1 = .ok x → Inlined h g e.2.1 e.2.2 x) → s.validate h v = s'.validate h v := by
  refine ⟨?_, fun n n' v inlined r => ?_, fun s s' fields v alike below => ?_⟩
  · intro f p target s v report custom object known found hv hold returns r
    have delegated := walk_delegated delegates custom object known hv ⟨report, returns⟩
    rw [Schema.validate_eq_walk] at returns
    obtain ⟨vs, walks, rfl⟩ := Except.map_eq_ok.mp returns
    rw [visit_eq_walk, visit_eq_walk, delegated, walk_nested hv found hold, walks]
    exact ⟨rfl, rfl⟩
  · rw [visit_eq_walk, visit_eq_walk, inlined.walk_eq delegates]
  · rw [Schema.validate_eq_walk, Schema.validate_eq_walk]
    by_cases hv : v.isAbsent = true
    · simp [Schema.walk, Schema.survey, hv, Survey.walk, Survey.gather, BoundRule.violationsAll]
    · rw [alike.walk hv fun e he x hx => (below e he x hx).walk_eq delegates]

/-! ### Albums of cards -/

/-- A mark of one whole number. -/
abbrev Schema.mark : Schema := .mk 1 (.text "Mark") [(.text "x", .scalar [] (.cls (.builtin .int) []))] [] .absent .absent

/-- A function that hands over to a schema. -/
abbrev Value.conforms : Value := .function ⟨"conforms", some "conforms", "", "function"⟩

abbrev ConstraintFunction.conforms : ConstraintFunction := { name := "conforms", check := .custom .conforms }

abbrev Value.schemaObject (n : Nat) : Value := .record ⟨.schema, n, "", ""⟩ []

abbrev Schema.card : Schema :=
  .mk 2 (.text "Card") [(.text "item", .scalar [⟨.conforms, .schemaObject 1⟩] .absent)] [] .absent .absent

abbrev Schema.openCard : Schema :=
  .mk 2 (.text "Card") [(.text "item", .nested [] (.schema .mark))] [] .absent .absent

/-- A program of marks and cards, whose function hands over to these; cards are validated by another program. -/
abbrev Host.filing (cards : Host) : Host :=
  { Host.bare with
    schemaObject := fun n => if n = 1 then some .mark else if n = 2 then some .card else none
    call := fun _ args => match args with
      | [v, p] => if p.serial = 1 then (Schema.mark.validate .bare v).map .report
          else if p.serial = 2 then (Schema.card.validate cards v).map .report else .error .zeroStep
      | _ => .error .zeroStep }

section Filing
variable {h h' : Host} {v : Value}

theorem Schema.walk_only {n : Nat} {name field type description : Value} {node : Node} (hv : ¬v.isAbsent = true) :
    (Schema.mk n name [(field, node)] [] type description).walk h v
      = inward [FieldSpec.segmentOf field] ((v.field field).bind (Conform.walk h node)) := by
  rw [Schema.walk, Schema.survey_present hv]
  simp only [Survey.walk, Survey.gather, Schema.fields, Schema.checks, walkBranches_fields]
  simp [inTurn, BoundRule.violationsAll]

theorem Value.field_single (n : String) (w : Value) : (Value.dict [(.text n, w)]).field (.text n) = .ok w := by
  simp [Value.field, Value.requireKey, Value.unhashable?, Value.lookup?, pure, Except.pure, bind, Except.bind]

theorem Schema.validate_only {n : Nat} {name field type description : Value} {node : Node}
    (same : ∀ w, Conform.walk h node w = Conform.walk h' node w) (v : Value) :
    (Schema.mk n name [(field, node)] [] type description).validate h v
      = (Schema.mk n name [(field, node)] [] type description).validate h' v := by
  rw [Schema.validate_eq_walk, Schema.validate_eq_walk]
  by_cases hv : v.isAbsent = true
  · simp [Schema.walk, Schema.survey, hv, Survey.walk, Survey.gather, BoundRule.violationsAll]
  · rw [Schema.walk_only hv, Schema.walk_only hv, funext same]

theorem walk_scalar_same {rules : List BoundRule} {type : Value}
    (same : ∀ v, BoundRule.violationsAll h rules v = BoundRule.violationsAll h' rules v) (v : Value) :
    walk h (.scalar rules type) v = walk h' (.scalar rules type) v := by
  by_cases hv : v.isAbsent = true
  · rw [walk_of_absent hv, walk_of_absent hv]
  · rw [walk_scalar hv, walk_scalar hv, same]

theorem validate_mark (v : Value) : Schema.mark.validate h v = Schema.mark.validate h' v := by
  have rules (w : Value) : BoundRule.violationsAll h [] w = BoundRule.violationsAll h' [] w := rfl
  exact Schema.validate_only (walk_scalar_same rules) v

theorem BoundRule.violations_custom {f : ConstraintFunction} {g p : Value} (custom : f.check = .custom g)
    (called : h.callValue g [v, p] = h'.callValue g [v, p]) :
    BoundRule.violations h ⟨f, p⟩ v = BoundRule.violations h' ⟨f, p⟩ v := by
  simp only [BoundRule.violations, ConstraintFunction.evaluate, custom, called]

theorem callValue_filing (p v : Value) : (Host.filing h).callValue .conforms [v, p]
    = if p.serial = 1 then (Schema.mark.validate .bare v).map .report
      else if p.serial = 2 then (Schema.card.validate h v).map .report else .error .zeroStep := rfl

theorem validate_card (v : Value) : Schema.card.validate (.filing h) v = Schema.card.validate (.filing h') v := by
  have rules (w : Value) : BoundRule.violationsAll (.filing h) [⟨.conforms, .schemaObject 1⟩] w
      = BoundRule.violationsAll (.filing h') [⟨.conforms, .schemaObject 1⟩] w := by
    have called : (Host.filing h).callValue .conforms [w, .schemaObject 1]
        = (Host.filing h').callValue .conforms [w, .schemaObject 1] := by
      have first : (Value.schemaObject 1).serial = 1 := rfl
      rw [callValue_filing, callValue_filing, if_pos first, if_pos first]
    have custom : ConstraintFunction.conforms.check = .custom .conforms := rfl
    simp only [BoundRule.violationsAll, List.flatMap_cons, List.flatMap_nil, BoundRule.violations_custom custom called]
  exact Schema.validate_only (walk_scalar_same rules) v

theorem schemaObject_filing {n : Nat} {s : Schema} (known : (Host.filing h).schemaObject n = some s) :
    n = 1 ∧ s = .mark ∨ n = 2 ∧ s = .card := by
  change (if n = 1 then some Schema.mark else if n = 2 then some Schema.card else none) = some s at known
  split at known
  · next first => exact .inl ⟨first, (Option.some.inj known).symm⟩
  · split at known
    · next second => exact .inr ⟨second, (Option.some.inj known).symm⟩
    · cases known

theorem filing_delegates : (Host.filing (.filing .bare)).Delegates Value.conforms := by
  intro method? v p s object known
  rw [validateMethod_schema object known, callValue_filing]
  obtain ⟨number, rfl⟩ | ⟨number, rfl⟩ := schemaObject_filing known
  · rw [number, if_pos rfl]
    exact congrArg _ (validate_mark v)
  · rw [number, if_neg (by decide), if_pos rfl]
    exact congrArg _ (validate_card v)

theorem walk_mark_far : Schema.mark.walk h (.dict [(.text "x", .text "far")])
    = .ok [(Violation.wrongType (.text "int") (.text "far")).under [.field (.text "x")]] := by
  have scalar : walk h (.scalar [] (.cls (.builtin .int) [])) (.text "far")
      = .ok [.wrongType (.text "int") (.text "far")] := walk_scalar (by simp [Value.isAbsent])
  rw [Schema.walk_only (by simp [Value.isAbsent]), Value.field_single, Except.bind, scalar]
  rfl

theorem validate_mark_far : ∃ report, Schema.mark.validate h (.dict [(.text "x", .text "far")]) = .ok report := by
  rw [Schema.validate_eq_walk, walk_mark_far]
  exact ⟨_, rfl⟩

theorem validate_card_returns : ∃ report, Schema.card.validate (.filing (.filing .bare))
    (.dict [(.text "item", .dict [(.text "x", .text "far")])]) = .ok report := by
  have item := walk_delegated (f := .conforms) (p := .schemaObject 1) filing_delegates rfl rfl rfl
    (by simp [Value.isAbsent]) validate_mark_far
  rw [Schema.validate_eq_walk, Schema.walk_only (by simp [Value.isAbsent]), Value.field_single, Except.bind, item,
    walk_mark_far]
  exact ⟨_, rfl⟩

end Filing

/-- An album hands its cards over to their schema, which hands over their items; it is read like an album of cards with
marks. -/
theorem delegating_is_nesting_of_album :
    let album : Node := .wrapper .sequence [] (some (.scalar [⟨.conforms, .schemaObject 2⟩] .absent)) none
    let opened : Node := .wrapper .sequence [] (some (.nested [] (.schema .openCard))) none
    let cards : Value := .list [.dict [(.text "item", .dict [(.text "x", .text "far")])]]
    (Host.filing (.filing .bare)).Delegates .conforms ∧ Inlined (.filing (.filing .bare)) .conforms album opened cards ∧
      ∀ r, visit (.filing (.filing .bare)) album cards r = visit (.filing (.filing .bare)) opened cards r := by
  intro album opened cards
  have marks : Schema.mark.Alike .mark
      [(.text "x", .scalar [] (.cls (.builtin .int) []), .scalar [] (.cls (.builtin .int) []))] :=
    ⟨rfl, rfl, rfl, rfl, rfl⟩
  have alike : Schema.card.Alike .openCard
      [(.text "item", .scalar [⟨.conforms, .schemaObject 1⟩] .absent, .nested [] (.schema .mark))] :=
    ⟨rfl, rfl, rfl, rfl, rfl⟩
  have item : Inlined (.filing (.filing .bare)) .conforms (.scalar [⟨.conforms, .schemaObject 1⟩] .absent)
      (.nested [] (.schema .mark)) (.dict [(.text "x", .text "far")]) := by
    refine .delegation rfl rfl rfl rfl marks (fun _ => rfl) (fun _ => validate_mark_far) fun e he x _ => ?_
    cases List.mem_singleton.mp he
    exact .same
  have inlined : Inlined (.filing (.filing .bare)) .conforms album opened cards := by
    refine .sequence fun items x hitems hx => ?_
    cases hitems
    cases List.mem_singleton.mp hx
    refine .delegation rfl rfl rfl rfl alike (fun _ => rfl) (fun _ => validate_card_returns) fun e he y hy => ?_
    cases List.mem_singleton.mp he
    cases (Value.field_single "item" _).symm.trans hy
    exact item
  exact ⟨filing_delegates, inlined, (delegating_is_nesting filing_delegates).2.1 album opened cards inlined⟩

end Conform
