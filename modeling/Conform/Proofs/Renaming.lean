import Conform.Proofs.Numbering
import Mathlib.Data.List.Forall2

/-!
Constraints under new names. A renaming gives every schema, by its number, new names for the constraints of its rules, so
that schemas made of one table can be renamed beside others that stay as they are. Renaming changes the rules of a survey
and nothing else (`Node.survey_rename`), and a renamed rule finds what the rule found but for its name
(`BoundRule.violations_rename`); so a renamed schema reports of every value what the schema reports
(`Schema.validate_rename`).
-/

namespace Conform

/-- New names of constraints, for each schema by its number. -/
abbrev Renaming := Nat → String → String

def ConstraintFunction.rename (σ : String → String) (f : ConstraintFunction) : ConstraintFunction :=
  { f with name := σ f.name }

def BoundRule.rename (σ : String → String) (r : BoundRule) : BoundRule := { r with function := r.function.rename σ }

mutual

/-- A node of the schema of a number, under new names. -/
def Node.rename (ρ : Renaming) (k : Nat) : Node → Node
  | .scalar rules type => .scalar (rules.map (BoundRule.rename (ρ k))) type
  | .wrapper w rules inner keys =>
    .wrapper w (rules.map (BoundRule.rename (ρ k))) (Node.renameInner ρ k inner) (Node.renameInner ρ k keys)
  | .nested rules target => .nested (rules.map (BoundRule.rename (ρ k))) (target.rename ρ)
  | .variants rules cases tag => .variants (rules.map (BoundRule.rename (ρ k))) (Node.renameCases ρ k cases) tag

def Node.renameInner (ρ : Renaming) (k : Nat) : Option Node → Option Node
  | none => none
  | some n => some (n.rename ρ k)

def Node.renameCases (ρ : Renaming) (k : Nat) : List (Value × Option Node) → List (Value × Option Node)
  | [] => []
  | (name, n) :: rest => (name, Node.renameInner ρ k n) :: Node.renameCases ρ k rest

def Target.rename (ρ : Renaming) : Target → Target
  | .schema s => .schema (s.rename ρ)
  | .value v => .value v

/-- A schema under the new names of its number. -/
def Schema.rename (ρ : Renaming) : Schema → Schema
  | .mk k name fields checks targetType description =>
    .mk k name (Schema.renameFields ρ k fields) (checks.map (BoundRule.rename (ρ k))) targetType description

def Schema.renameFields (ρ : Renaming) (k : Nat) : List (Value × Node) → List (Value × Node)
  | [] => []
  | (name, n) :: rest => (name, n.rename ρ k) :: Schema.renameFields ρ k rest

end

/-- A program whose classes and schema objects carry the renamed schemas; its functions are the same. -/
def Host.rename (ρ : Renaming) (h : Host) : Host :=
  { h with
    classSchema := fun c => (h.classSchema c).map (Schema.rename ρ)
    schemaObject := fun n => (h.schemaObject n).map (Schema.rename ρ) }

section Parts
variable {ρ : Renaming} {k : Nat} {h : Host}

theorem Node.renameInner_eq (n : Option Node) : Node.renameInner ρ k n = n.map (Node.rename ρ k) := by
  cases n <;> rw [Node.renameInner] <;> rfl

theorem Node.renameCases_eq (cases : List (Value × Option Node)) :
    Node.renameCases ρ k cases = cases.map fun x => (x.1, x.2.map (Node.rename ρ k)) := by
  induction cases with
  | nil =>
    rw [Node.renameCases]
    rfl
  | cons entry rest ih =>
    obtain ⟨name, n⟩ := entry
    rw [Node.renameCases, ih, Node.renameInner_eq, List.map_cons]

theorem Node.renameCases_assign (key : Value) (n : Option Node) (cases : List (Value × Option Node)) :
    Value.assign key (n.map (Node.rename ρ k)) (Node.renameCases ρ k cases)
      = Node.renameCases ρ k (Value.assign key n cases) := by
  rw [Node.renameCases_eq, Node.renameCases_eq]
  exact Value.assign_map key n (Option.map (Node.rename ρ k)) cases

theorem Schema.renameFields_eq (fields : List (Value × Node)) :
    Schema.renameFields ρ k fields = fields.map fun x => (x.1, x.2.rename ρ k) := by
  induction fields with
  | nil =>
    rw [Schema.renameFields]
    rfl
  | cons field rest ih =>
    obtain ⟨name, n⟩ := field
    rw [Schema.renameFields, ih, List.map_cons]

section Schemas
variable (s : Schema)

@[simp] theorem Schema.name_rename : (s.rename ρ).name = s.name := by
  cases s
  rw [Schema.rename]
  rfl

@[simp] theorem Schema.targetType_rename : (s.rename ρ).targetType = s.targetType := by
  cases s
  rw [Schema.rename]
  rfl

@[simp] theorem Schema.fields_rename : (s.rename ρ).fields = s.fields.map fun x => (x.1, x.2.rename ρ s.serial) := by
  cases s
  rw [Schema.rename, Schema.renameFields_eq]
  rfl

@[simp] theorem Schema.checks_rename : (s.rename ρ).checks = s.checks.map (BoundRule.rename (ρ s.serial)) := by
  cases s
  rw [Schema.rename]
  rfl

@[simp] theorem Schema.text_rename : (s.rename ρ).text = s.text := by
  have names : (s.rename ρ).fieldNames = s.fieldNames := by
    rw [Schema.fieldNames, Schema.fields_rename, List.map_map]
    rfl
  rw [Schema.text, Schema.text, names, Schema.name_rename]

end Schemas

theorem Host.schemaOf?_rename (v : Value) : (h.rename ρ).schemaOf? v = (h.schemaOf? v).map (Schema.rename ρ) := by
  unfold Host.schemaOf? Host.rename
  split
  · rfl
  · rfl
  · split <;> rfl
  · rfl

theorem Host.targetSchema?_rename (target : Target) :
    (h.rename ρ).targetSchema? (target.rename ρ) = (h.targetSchema? target).map (Schema.rename ρ) := by
  cases target with
  | schema s =>
    rw [Target.rename]
    rfl
  | value v =>
    rw [Target.rename]
    exact h.schemaOf?_rename v

theorem Target.label_rename (target : Target) : (target.rename ρ).label = target.label := by
  cases target with
  | schema s =>
    rw [Target.rename]
    exact s.text_rename
  | value v => rw [Target.rename]

theorem Host.requireSchema_rename (target : Target) :
    (h.rename ρ).requireSchema (target.rename ρ) = (h.requireSchema target).map (Schema.rename ρ) := by
  unfold Host.requireSchema
  rw [Host.targetSchema?_rename, Target.label_rename]
  cases h.targetSchema? target <;> rfl

end Parts

/-! ### Surveys -/

def Branch.rename (ρ : Renaming) (k : Nat) (b : Branch) : Branch := { b with node := b.node.rename ρ k }

/-- A survey under new names: its rules are of one schema, and what it goes on with is of another when it is of a
structure. -/
def Survey.rename (ρ : Renaming) (k below : Nat) (s : Survey) : Survey :=
  { s with
    rules := s.rules.map (BoundRule.rename (ρ k))
    branches := s.branches.map (Branch.rename ρ below)
    checks := s.checks.map (BoundRule.rename (ρ below)) }

/-- The number of the schema that a node of the schema of a number goes on with. -/
def Node.schemaBelow (h : Host) (k : Nat) : Node → Nat
  | .nested _ target => ((h.targetSchema? target).map Schema.serial).getD k
  | _ => k

section Surveys
variable {ρ : Renaming} {k : Nat} {h : Host} {v : Value}

/-- Renaming as a replacement. -/
def Replacement.rename (ρ : Renaming) (k below : Nat) : Replacement where
  rules := List.map (BoundRule.rename (ρ k))
  checks := List.map (BoundRule.rename (ρ below))
  node := fun _ => Node.rename ρ below
  rules_nil := rfl
  checks_nil := rfl

theorem Schema.of_rename (s : Schema) (k : Nat) : (Replacement.rename ρ k s.serial).OfSchema s (s.rename ρ) where
  name := s.name_rename
  targetType := s.targetType_rename
  fields := s.fields_rename.trans (Value.reassign_const (Node.rename ρ s.serial) s.fields).symm
  checks := s.checks_rename

theorem Schema.survey_rename (s : Schema) (k : Nat) : (s.rename ρ).survey v = (s.survey v).rename ρ k s.serial :=
  (s.of_rename k).survey_eq

theorem Node.of_rename (n : Node) : (Replacement.rename ρ k (n.schemaBelow h k)).Of h (h.rename ρ) n (n.rename ρ k) := by
  cases n with
  | scalar rules type =>
    rw [Node.rename]
    exact .scalar rules type
  | wrapper w rules inner keys =>
    rw [Node.rename, renameInner_eq, renameInner_eq]
    exact .wrapper w rules inner keys
  | nested rules target =>
    rw [Node.rename]
    refine .nested rules (Host.requireSchema_rename target) fun s found => ?_
    have number : (Node.nested rules target).schemaBelow h k = s.serial := by
      rw [schemaBelow, Host.requireSchema_eq_ok.mp found]
      rfl
    rw [number]
    exact s.of_rename k
  | variants rules cases tag =>
    rw [Node.rename, renameCases_eq, ← Value.reassign_const]
    exact .variants rules cases tag

/-- Renaming renames the rules of every survey, and changes nothing else. -/
theorem Node.survey_rename (n : Node) :
    (n.rename ρ k).survey (h.rename ρ) v = (n.survey h v).map (Survey.rename ρ k (n.schemaBelow h k)) :=
  n.of_rename.survey_eq fun _ => rfl

end Surveys

/-! ### What rules find -/

/-- What the details of a failure are, given the name of the constraint. -/
inductive Wording : (String → Details) → Prop
  | given (d : Details) : Wording fun _ => d
  | failed : Wording fun name => details [("message", .text ("constraint '" ++ name ++ "' failed"))]
  | unexpected (what : String) : Wording fun name =>
    details [("message", .text ("constraint '" ++ name ++ "' returned unexpected " ++ what))]
  | raised (f : Fault) : Wording fun name =>
    details [("message", .text ("constraint '" ++ name ++ "' raised " ++ f.kind ++ ": " ++ f.message)),
      ("exception", .text f.kind)]

/-- A violation of a level itself, which is of no constraint. -/
inductive Violation.OfLevel : Violation → Prop
  | required : OfLevel .required
  | wrongType (expected v : Value) : OfLevel (.wrongType expected v)
  | wrongVariant {cases : List (Value × Option Node)} {actual problem : String} {x : Violation}
    (made : Violation.wrongVariant cases actual problem = .ok x) : OfLevel x

/-- A violation under new names: what a constraint finds is found under its new name, with the details that it gives under
that name, and they are the same but for the name in texts that are made of it. A violation of a level is the same, and so
is what a function of the program found itself. -/
inductive Violation.Renamed (ρ : Renaming) (h : Host) : Violation → Violation → Prop
  | level {x : Violation} (own : x.OfLevel) (p : Path) : Renamed ρ h (x.under p) (x.under p)
  | included {g : Value} {args : List Value} {r : Report} (given : h.callValue g args = .ok (.report r)) {x : Violation}
    (mem : x ∈ r.violations) (p : Path) : Renamed ρ h (x.under p) (x.under p)
  | constraint {f : ConstraintFunction} {v param : Value} {d : String → Details} (wording : Wording d)
    (fails : ∀ name, { f with name }.evaluate h v param = .fails (d name)) (k : Nat) (p : Path) :
    Renamed ρ h (.report f.name (d f.name) p) (.report (ρ k f.name) (d (ρ k f.name)) p)

/-- What is found under new names; what goes wrong is the same. -/
inductive Found (ρ : Renaming) (h : Host) : Except Fault (List Violation) → Except Fault (List Violation) → Prop
  | error (f : Fault) : Found ρ h (.error f) (.error f)
  | ok {vs ws : List Violation} (each : List.Forall₂ (Violation.Renamed ρ h) vs ws) : Found ρ h (.ok vs) (.ok ws)

theorem Node.own_ofLevel {h : Host} {n : Node} {v : Value} {s : Survey} {x : Violation} (hs : n.survey h v = .ok s)
    (hx : s.own = some x) : x.OfLevel := by
  by_cases hv : v.isAbsent = true
  · rw [survey_absent hv] at hs
    cases hs
    unfold surveyAbsent at hx
    split at hx <;> cases hx
    exact .required
  rw [survey_present hv] at hs
  cases n with
  | scalar rules type =>
    obtain ⟨fits, -, rfl⟩ := Except.map_eq_ok.mp hs
    split at hx <;> cases hx
    exact .wrongType _ v
  | wrapper w rules inner keys =>
    cases w with
    | optional =>
      cases hs
      cases hx
    | sequence =>
      cases hs
      unfold Survey.sequence at hx
      split at hx <;> cases hx
      exact .wrongType _ v
    | mapping =>
      cases hs
      unfold Survey.mapping at hx
      split at hx <;> cases hx
      exact .wrongType _ v
  | nested rules target =>
    obtain ⟨schema, holds, -, -, rfl⟩ := Survey.structured_eq_ok hs
    unfold Schema.survey at hx
    rw [if_neg hv] at hx
    split at hx <;> cases hx
    exact .wrongType _ v
  | variants rules cases tag =>
    rcases Survey.choice_eq_ok hs with ⟨f, y, -, made, rfl⟩ | ⟨name, y, -, made, rfl⟩ | ⟨name, node, -, rfl⟩
    · cases hx
      exact .wrongVariant made
    · cases hx
      exact .wrongVariant made
    · cases hx

section Finding
variable {ρ : Renaming} {h : Host} {v : Value}

theorem ConstraintFunction.verdictOf_naming (w : Value) :
    (∀ name, verdictOf name (.value w) = .holds) ∨
      ∃ d, Wording d ∧ ∀ name, verdictOf name (.value w) = .fails (d name) := by
  cases w with
  | absent => exact .inl fun _ => rfl
  | bool b => cases b with
    | true => exact .inl fun _ => rfl
    | false => exact .inr ⟨_, .failed, fun _ => rfl⟩
  | mapping kind entries => exact .inr ⟨_, .given entries, fun _ => rfl⟩
  | _ =>
    refine .inr ?_
    unfold verdictOf
    dsimp only
    split
    · exact ⟨_, .given _, fun _ => rfl⟩
    · exact ⟨_, .unexpected _, fun _ => rfl⟩

/-- A function says the same under every name, but for the name. -/
theorem ConstraintFunction.evaluate_naming (f : ConstraintFunction) (param : Value) :
    (∀ name, { f with name }.evaluate h v param = .holds) ∨
      (∃ r g args, h.callValue g args = .ok (.report r) ∧ ∀ name, { f with name }.evaluate h v param = .found r) ∨
      ∃ d, Wording d ∧ ∀ name, { f with name }.evaluate h v param = .fails (d name) := by
  unfold evaluate
  cases f.check with
  | builtin b =>
    dsimp only
    rcases b.run h v param with e | _ | d
    · exact .inr (.inr ⟨_, .raised e, fun _ => rfl⟩)
    · exact .inl fun _ => rfl
    · exact .inr (.inr ⟨_, .given d, fun _ => rfl⟩)
  | custom g =>
    dsimp only
    rcases given : h.callValue g [v, param] with e | ⟨w⟩ | r
    · exact .inr (.inr ⟨_, .raised e, fun _ => rfl⟩)
    · rcases verdictOf_naming w with holds | fails
      · exact .inl holds
      · exact .inr (.inr fails)
    · by_cases valid : r.valid = true
      · exact .inl fun _ => if_pos valid
      · exact .inr (.inl ⟨r, g, _, given, fun _ => if_neg valid⟩)

/-- A rule finds under its new name what it finds, but for the name. -/
theorem BoundRule.violations_rename (k : Nat) (r : BoundRule) :
    List.Forall₂ (Violation.Renamed ρ h) (r.violations h v) ((r.rename (ρ k)).violations h v) := by
  have before {verdict : Verdict} (same : { r.function with name := r.name }.evaluate h v r.param = verdict) :
      r.function.evaluate h v r.param = verdict := same
  have after {verdict : Verdict} (same : { r.function with name := ρ k r.name }.evaluate h v r.param = verdict) :
      (r.rename (ρ k)).function.evaluate h v (r.rename (ρ k)).param = verdict := same
  unfold violations
  rcases r.function.evaluate_naming (h := h) (v := v) r.param with
    holds | ⟨report, g, args, given, found⟩ | ⟨d, wording, fails⟩
  · rw [before (holds _), after (holds _)]
    exact .nil
  · rw [before (found _), after (found _)]
    exact List.forall₂_same.mpr fun x hx => .included given hx []
  · rw [before (fails _), after (fails _)]
    exact .cons (.constraint wording fails k []) .nil

theorem BoundRule.violationsAll_rename (k : Nat) (rules : List BoundRule) :
    List.Forall₂ (Violation.Renamed ρ h) (violationsAll h rules v)
      (violationsAll h (rules.map (BoundRule.rename (ρ k))) v) := by
  induction rules with
  | nil => exact .nil
  | cons r rest ih => exact List.rel_append (r.violations_rename k) ih

theorem Violation.Renamed.under (way : Path) {x y : Violation} (renamed : x.Renamed ρ h y) :
    (x.under way).Renamed ρ h (y.under way) := by
  cases renamed with
  | level own p =>
    rw [under_under]
    exact .level own (way ++ p)
  | included given mem p =>
    rw [under_under]
    exact .included given mem (way ++ p)
  | constraint wording fails k p =>
    rw [under_report, under_report]
    exact .constraint wording fails k (way ++ p)

/-! ### What validation finds -/

namespace Found
variable {found found' next next' : Except Fault (List Violation)}

theorem andThen (first : Found ρ h found found') (second : Found ρ h next next') :
    Found ρ h (Conform.andThen found next) (Conform.andThen found' next') := by
  cases first with
  | error f => exact .error f
  | ok each => cases second with
    | error f => exact .error f
    | ok more => exact .ok (List.rel_append each more)

theorem inward (way : Path) (renamed : Found ρ h found found') :
    Found ρ h (Conform.inward way found) (Conform.inward way found') := by
  cases renamed with
  | error f => exact .error f
  | ok each => exact .ok (List.rel_map (fun _ _ renamed => renamed.under way) each)

theorem walkBranches {branches : List Branch} {k : Nat}
    (each : ∀ b ∈ branches, ∀ x, b.value = .ok x →
      Found ρ h (walk h b.node x) (walk (h.rename ρ) (b.node.rename ρ k) x)) :
    Found ρ h (Conform.walkBranches h branches) (Conform.walkBranches (h.rename ρ) (branches.map (Branch.rename ρ k))) := by
  induction branches with
  | nil => exact .ok .nil
  | cons b rest ih =>
    rw [List.map_cons, walkBranches_cons, walkBranches_cons]
    refine .andThen ?_ (ih fun b hb => each b (List.mem_cons_of_mem _ hb))
    have here := each b List.mem_cons_self
    have same : (b.rename ρ k).value = b.value := rfl
    rw [walkBranch, walkBranch, same]
    rcases hx : b.value with f | x
    · exact .error f
    · exact (here x hx).inward b.way

theorem surveyed {s : Survey} {k below : Nat} (own : ∀ x, s.own = some x → x.OfLevel)
    (each : ∀ b ∈ s.branches, ∀ x, b.value = .ok x →
      Found ρ h (walk h b.node x) (walk (h.rename ρ) (b.node.rename ρ below) x)) :
    Found ρ h (s.walk h v) ((s.rename ρ k below).walk (h.rename ρ) v) := by
  have rules : List.Forall₂ (Violation.Renamed ρ h) (BoundRule.violationsAll h s.rules v ++ s.own.toList)
      (BoundRule.violationsAll h (s.rules.map (BoundRule.rename (ρ k))) v ++ s.own.toList) :=
    List.rel_append (BoundRule.violationsAll_rename k s.rules)
      (List.forall₂_same.mpr fun x hx => .level (own x (Option.mem_toList.mp hx)) [])
  have checks : List.Forall₂ (Violation.Renamed ρ h) (BoundRule.violationsAll h s.checks v)
      (BoundRule.violationsAll h (s.checks.map (BoundRule.rename (ρ below))) v) :=
    BoundRule.violationsAll_rename below s.checks
  exact (Found.ok rules).andThen ((Found.walkBranches each).andThen (.ok checks))

end Found

/-- What a renamed node finds in a value is what the node finds, under new names. -/
theorem walk_rename (node : Node) (v : Value) : ∀ k, Found ρ h (walk h node v) (walk (h.rename ρ) (node.rename ρ k) v) := by
  refine walk_induction h (P := fun node v => ∀ k, Found ρ h (walk h node v) (walk (h.rename ρ) (node.rename ρ k) v))
    (fun node v ih k => ?_) node v
  rw [walk_eq, walk_eq, Node.survey_rename]
  rcases hs : node.survey h v with f | s
  · exact .error f
  · exact .surveyed (fun _ => Node.own_ofLevel hs) fun b hb x hx => ih b.way b.node x (Step.of_branch hs hb hx) _

theorem Schema.walk_rename (s : Schema) (v : Value) : Found ρ h (s.walk h v) ((s.rename ρ).walk (h.rename ρ) v) := by
  unfold Schema.walk
  rw [Schema.survey_rename s s.serial]
  refine .surveyed (fun x hx => ?_) fun b _ x _ => Conform.walk_rename b.node x _
  unfold Schema.survey at hx
  split at hx <;> cases hx
  exact .required

/-- Reports of a value under old and new names: the same violations in the same order, but for names. -/
inductive Reported (ρ : Renaming) (h : Host) : Except Fault Report → Except Fault Report → Prop
  | error (f : Fault) : Reported ρ h (.error f) (.error f)
  | ok (v : Value) {vs ws : List Violation} (each : List.Forall₂ (Violation.Renamed ρ h) vs ws) :
    Reported ρ h (.ok (.of v vs)) (.ok (.of v ws))

theorem Found.report (v : Value) {found found' : Except Fault (List Violation)} (renamed : Found ρ h found found') :
    Reported ρ h (found.map (Report.of v)) (found'.map (Report.of v)) := by
  cases renamed with
  | error f => exact .error f
  | ok each => exact .ok v each

theorem Node.validate_rename (n : Node) (k : Nat) (v : Value) :
    Reported ρ h (n.validate h v) ((n.rename ρ k).validate (h.rename ρ) v) := by
  rw [validate_eq_walk, validate_eq_walk]
  exact (Conform.walk_rename n v k).report v

/-- A renamed schema reports of every value what the schema reports, under new names. -/
theorem Schema.validate_rename (s : Schema) (v : Value) :
    Reported ρ h (s.validate h v) ((s.rename ρ).validate (h.rename ρ) v) := by
  rw [validate_eq_walk, validate_eq_walk]
  exact (s.walk_rename v).report v

end Finding

end Conform
