import Conform.Proofs.Blame
import Conform.Proofs.Reference

/-!
Complaints, kind by kind. `Complains` says for every kind of level which violation it reports of which value,
on the value alone and without a path. When no rule gives back a report of its own, these are all the
violations that a level reports, and every violation of a validation is one of them, moved to the place
that its path leads to.
-/

namespace Conform

/-! ### Rules -/

/-- A rule fails on a value with a violation. -/
def BoundRule.Fails (h : Host) (rule : BoundRule) (v : Value) (e : Violation) : Prop :=
  ∃ d, rule.function.evaluate h v rule.param = .fails d ∧ e = Violation.report rule.name d []

/-- A rule never gives back a report of its own. -/
def BoundRule.Plain (h : Host) (rule : BoundRule) : Prop :=
  ∀ v report, rule.function.evaluate h v rule.param ≠ .found report

/-- A check of the engine is plain. -/
theorem BoundRule.plain_of_builtin {h : Host} {rule : BoundRule} {b : BuiltinCheck}
    (hb : rule.function.check = .builtin b) : rule.Plain h := by
  intro v report found
  unfold ConstraintFunction.evaluate at found
  simp only [hb] at found
  split at found <;> cases found

theorem BoundRule.Fails.mem_violations {h : Host} {rule : BoundRule} {v : Value} {e : Violation}
    (fails : rule.Fails h v e) : e ∈ rule.violations h v := by
  obtain ⟨d, hd, rfl⟩ := fails
  simp [violations, hd]

theorem BoundRule.Plain.fails {h : Host} {rule : BoundRule} {v : Value} {e : Violation} (plain : rule.Plain h)
    (he : e ∈ rule.violations h v) : rule.Fails h v e := by
  unfold violations at he
  split at he
  · cases he
  · next d hd => exact ⟨d, hd, List.mem_singleton.mp he⟩
  · next report found => exact (plain v report found).elim

theorem BoundRule.mem_violationsAll {h : Host} {rules : List BoundRule} {v : Value} {e : Violation} :
    e ∈ violationsAll h rules v ↔ ∃ rule ∈ rules, e ∈ rule.violations h v := List.mem_flatMap

theorem Survey.mem_complaints {s : Survey} {h : Host} {v : Value} {e : Violation} :
    e ∈ s.complaints h v ↔ (∃ rule ∈ s.rules, e ∈ rule.violations h v) ∨ s.own = some e ∨
      ∃ rule ∈ s.checks, e ∈ rule.violations h v := by
  simp [complaints, BoundRule.mem_violationsAll]

/-- The rules that a level has, at any depth and in the schemas that it refers to. -/
inductive Level.HasRule (h : Host) : Level → BoundRule → Prop where
  | own {n rule} (hr : rule ∈ n.rules) : HasRule h (.node n) rule
  | check {s rule} (hr : rule ∈ s.checks) : HasRule h (.schema s) rule
  | field {s name n rule} (hf : (name, n) ∈ s.fields) (below : HasRule h (.node n) rule) : HasRule h (.schema s) rule
  | inner {w rules n keys rule} (below : HasRule h (.node n) rule) :
    HasRule h (.node (.wrapper w rules (some n) keys)) rule
  | key {w rules inner n rule} (below : HasRule h (.node n) rule) :
    HasRule h (.node (.wrapper w rules inner (some n))) rule
  | target {rules target s rule} (hs : h.targetSchema? target = some s) (below : HasRule h (.schema s) rule) :
    HasRule h (.node (.nested rules target)) rule
  | case {rules cases tag name n rule} (hc : (name, some n) ∈ cases) (below : HasRule h (.node n) rule) :
    HasRule h (.node (.variants rules cases tag)) rule

/-- A level has the rules of the nodes that it steps to. -/
theorem Level.Step.hasRule {h : Host} {level : Level} {v x : Value} {p : Path} {m : Node} {rule : BoundRule}
    (step : Level.Step h level v p m x) (hr : (Level.node m).HasRule h rule) : level.HasRule h rule := by
  cases step with
  | node step => cases step with
    | optional | element | entry => exact .inner hr
    | key => exact .key hr
    | field hv hs hold hf hx => exact .target hs (.field hf hr)
    | payload hv hs =>
      obtain ⟨n, hn⟩ := selectCase_mem hs
      exact .case hn hr
  | field hv hf hx => exact .field hf hr

/-- A level has the rules of all levels that validation reaches from it. -/
theorem Leads.hasRule {h : Host} {a b : Level} {v x : Value} {p : Path} {rule : BoundRule}
    (leads : Leads h a v p b x) (hr : b.HasRule h rule) : a.HasRule h rule := by
  induction leads with
  | here => exact hr
  | there step _ ih => exact step.hasRule (ih hr)

/-! ### Complaints -/

/-- A level that takes an absent value for valid. -/
def Level.isOptional : Level → Bool
  | .node (.wrapper .optional _ _ _) => true
  | _ => false

/-- A present value is of the kind that a node's rules apply to. -/
def Node.Admits (v : Value) : Node → Prop
  | .scalar _ type => v.fits type = .ok true
  | .wrapper .sequence _ _ _ => v.elements?.isSome
  | .wrapper .mapping _ _ _ => v.entries?.isSome
  | _ => True

/-- The survey of a value that a node admits applies the node's rules. -/
theorem Node.rules_survey {h : Host} {n : Node} {v : Value} {s : Survey} (hv : ¬v.isAbsent = true)
    (admits : n.Admits v) (hs : n.survey h v = .ok s) : s.rules = n.rules := by
  rw [Node.survey_present hv] at hs
  match n with
  | .scalar rules type =>
    have admits : v.fits type = .ok true := admits
    simp only [Node.surveyPresent, admits] at hs
    cases hs
    rfl
  | .wrapper .optional rules inner keys =>
    cases hs
    rfl
  | .wrapper .sequence rules inner keys =>
    obtain ⟨items, hitems⟩ := Option.isSome_iff_exists.mp admits
    simp only [Node.surveyPresent, Survey.sequence, hitems] at hs
    cases hs
    rfl
  | .wrapper .mapping rules inner keys =>
    obtain ⟨entries, hentries⟩ := Option.isSome_iff_exists.mp admits
    simp only [Node.surveyPresent, Survey.mapping, hentries] at hs
    cases hs
    rfl
  | .nested rules target =>
    obtain ⟨schema, holds, -, -, rfl⟩ := Survey.structured_eq_ok hs
    cases holds <;> rfl
  | .variants rules cases tag =>
    obtain ⟨f, x, -, -, rfl⟩ | ⟨name, x, -, -, rfl⟩ | ⟨name, node, -, rfl⟩ := Survey.choice_eq_ok hs <;> rfl

/-- What a level reports of a value, kind by kind. -/
inductive Complains (h : Host) : Level → Value → Violation → Prop where
  /-- The value is missing. -/
  | required {level v} (hv : v.isAbsent = true) (ho : level.isOptional = false) : Complains h level v .required
  /-- A rule of the node fails on the value. -/
  | rule {n v rule e} (hv : ¬v.isAbsent = true) (admits : n.Admits v) (hr : rule ∈ n.rules)
      (fails : rule.Fails h v e) : Complains h (.node n) v e
  /-- A check of the schema fails on the value. -/
  | check {s v rule e} (hv : ¬v.isAbsent = true) (hr : rule ∈ s.checks) (fails : rule.Fails h v e) :
    Complains h (.schema s) v e
  /-- A check of the schema of a structure fails on the value. -/
  | structureCheck {rules target s v rule e} (hv : ¬v.isAbsent = true) (hs : h.targetSchema? target = some s)
      (hold : v.canHold s = .ok true) (hr : rule ∈ s.checks) (fails : rule.Fails h v e) :
    Complains h (.node (.nested rules target)) v e
  /-- The value is of another class. -/
  | scalarType {rules type v} (hv : ¬v.isAbsent = true) (fits : v.fits type = .ok false) :
    Complains h (.node (.scalar rules type)) v (.wrongType (.text type.typeLabel) v)
  /-- The value is no collection of elements. -/
  | sequenceType {rules inner keys v} (hv : ¬v.isAbsent = true) (none : v.elements? = none) :
    Complains h (.node (.wrapper .sequence rules inner keys)) v (.wrongType (.text "sequence") v)
  /-- The value is no mapping. -/
  | mappingType {rules inner keys v} (hv : ¬v.isAbsent = true) (none : v.entries? = none) :
    Complains h (.node (.wrapper .mapping rules inner keys)) v (.wrongType (.text "mapping") v)
  /-- The value cannot hold the fields of the structure. -/
  | structureType {rules target s v} (hv : ¬v.isAbsent = true) (hs : h.targetSchema? target = some s)
      (hold : v.canHold s = .ok false) : Complains h (.node (.nested rules target)) v (.wrongType s.name v)
  /-- Which variant the value is cannot be told. -/
  | undetermined {rules cases tag v f e} (hv : ¬v.isAbsent = true) (hs : selectCase h tag v cases = .error f)
      (he : Violation.undetermined cases f = .ok e) : Complains h (.node (.variants rules cases tag)) v e
  /-- The value is of a variant that is none of the cases. -/
  | unknownVariant {rules cases tag v name e} (hv : ¬v.isAbsent = true)
      (hs : selectCase h tag v cases = .ok (name, .none)) (he : Violation.unknownVariant cases name = .ok e) :
    Complains h (.node (.variants rules cases tag)) v e

theorem Node.reports_absent {h : Host} {n : Node} {v : Value} {e : Violation} (hv : v.isAbsent = true)
    (reports : (Level.node n).Reports h v e) : Complains h (.node n) v e := by
  obtain ⟨s, hs, he⟩ := reports
  cases (Node.survey_absent hv).symm.trans hs
  rw [Survey.mem_complaints] at he
  unfold Node.surveyAbsent at he
  split at he
  · simp at he
  · next hopt =>
    have ho : (Level.node n).isOptional = false := by
      unfold Level.isOptional
      split
      · next rules inner keys heq => cases heq; exact (hopt _ _ _ rfl).elim
      · rfl
    simp only [List.not_mem_nil, false_and, exists_false, or_false, false_or, Option.some.injEq] at he
    exact he ▸ .required hv ho

/-- What a survey reports is a complaint of the node when its rules are rules of the node, which apply to the
value, and when its own violation and its checks are complaints. -/
theorem Complains.of_survey {h : Host} {n : Node} {v : Value} {e : Violation} {s : Survey}
    (plain : ∀ rule, (Level.node n).HasRule h rule → rule.Plain h) (hv : ¬v.isAbsent = true)
    (rules : ∀ rule ∈ s.rules, rule ∈ n.rules ∧ n.Admits v) (own : ∀ x, s.own = some x → Complains h (.node n) v x)
    (checks : ∀ rule ∈ s.checks, e ∈ rule.violations h v → Complains h (.node n) v e)
    (he : e ∈ s.complaints h v) : Complains h (.node n) v e := by
  obtain ⟨rule, hr, he⟩ | ho | ⟨rule, hr, he⟩ := Survey.mem_complaints.mp he
  · obtain ⟨hr, admits⟩ := rules rule hr
    exact .rule hv admits hr ((plain rule (.own hr)).fails he)
  · exact own e ho
  · exact checks rule hr he

/-- So it is when the survey says that the value does not fit its level, and goes no further. -/
theorem Complains.of_own {h : Host} {n : Node} {v : Value} {e x : Violation} {rules : List BoundRule}
    (plain : ∀ rule, (Level.node n).HasRule h rule → rule.Plain h) (hv : ¬v.isAbsent = true)
    (admitted : ∀ rule ∈ rules, rule ∈ n.rules ∧ n.Admits v) (own : Complains h (.node n) v x)
    (he : e ∈ ({ rules, own := some x } : Survey).complaints h v) : Complains h (.node n) v e := by
  refine .of_survey plain hv admitted (fun y ho => ?_) (by simp) he
  cases ho
  exact own

/-- Whatever a node whose rules are plain reports of a present value is one of the complaints. -/
theorem Node.reports_present {h : Host} {n : Node} {v : Value} {e : Violation}
    (plain : ∀ rule, (Level.node n).HasRule h rule → rule.Plain h) (hv : ¬v.isAbsent = true)
    (reports : (Level.node n).Reports h v e) : Complains h (.node n) v e := by
  obtain ⟨s, hs, he⟩ := reports
  have hs := (Node.survey_present hv).symm.trans hs
  match n with
  | .scalar rules type =>
    obtain ⟨fits, hfits, rfl⟩ := Except.map_eq_ok.mp hs
    cases fits with
    | true => exact .of_survey plain hv (fun _ hr => ⟨hr, hfits⟩) (by simp) (by simp) he
    | false =>
      exact .of_own plain hv (by simp) (.scalarType hv hfits) he
  | .wrapper .optional rules inner keys =>
    cases hs
    exact .of_survey plain hv (fun _ hr => ⟨hr, trivial⟩) (by simp) (by simp) he
  | .wrapper .sequence rules inner keys =>
    cases hs
    unfold Survey.sequence at he
    split at he
    · next hnone =>
      exact .of_own plain hv (by simp) (.sequenceType hv hnone) he
    · next items hitems =>
      exact .of_survey plain hv (fun _ hr => ⟨hr, Option.isSome_of_eq_some hitems⟩) (by simp) (by simp) he
  | .wrapper .mapping rules inner keys =>
    cases hs
    unfold Survey.mapping at he
    split at he
    · next hnone =>
      exact .of_own plain hv (by simp) (.mappingType hv hnone) he
    · next entries hentries =>
      exact .of_survey plain hv (fun _ hr => ⟨hr, Option.isSome_of_eq_some hentries⟩) (by simp) (by simp) he
  | .nested rules target =>
    obtain ⟨schema, holds, hschema, hold, rfl⟩ := Survey.structured_eq_ok hs
    cases holds with
    | true =>
      simp only [if_true, Schema.survey_present hv] at he
      refine .of_survey plain hv (fun _ hr => ⟨hr, trivial⟩) (by simp) (fun rule hr he => ?_) he
      exact .structureCheck hv hschema hold hr ((plain rule (.target hschema (.check hr))).fails he)
    | false =>
      exact .of_own plain hv (fun _ hr => ⟨hr, trivial⟩) (.structureType hv hschema hold) he
  | .variants rules cases tag =>
    obtain ⟨f, x, hf, hx, rfl⟩ | ⟨name, x, hname, hx, rfl⟩ | ⟨name, node, hname, rfl⟩ := Survey.choice_eq_ok hs
    · exact .of_own plain hv (fun _ hr => ⟨hr, trivial⟩) (.undetermined hv hf hx) he
    · exact .of_own plain hv (fun _ hr => ⟨hr, trivial⟩) (.unknownVariant hv hname hx) he
    · exact .of_survey plain hv (fun _ hr => ⟨hr, trivial⟩) (by simp) (by simp) he

/-- Whatever a level whose rules are plain reports is one of the complaints. -/
theorem Level.Reports.complains {h : Host} {level : Level} {v : Value} {e : Violation}
    (reports : level.Reports h v e) (plain : ∀ rule, level.HasRule h rule → rule.Plain h) :
    Complains h level v e := by
  by_cases hv : v.isAbsent = true
  · cases level with
    | node n => exact Node.reports_absent hv reports
    | schema s =>
      obtain ⟨_, hs, he⟩ := reports
      cases hs
      simp only [Schema.survey, hv, if_true, Survey.mem_complaints] at he
      simp only [List.not_mem_nil, false_and, exists_false, or_false, false_or, Option.some.injEq] at he
      exact he ▸ .required hv rfl
  · cases level with
    | node n => exact Node.reports_present plain hv reports
    | schema s =>
      obtain ⟨_, hs, he⟩ := reports
      cases hs
      rw [Schema.survey_present hv] at he
      obtain ⟨rule, hr, -⟩ | ho | ⟨rule, hr, he⟩ := Survey.mem_complaints.mp he
      · cases hr
      · cases ho
      · exact .check hv hr ((plain rule (.check hr)).fails he)

/-- Every complaint of a level is among what its survey reports, whatever its rules are. -/
theorem Complains.mem_complaints {h : Host} {level : Level} {v : Value} {e : Violation} {s : Survey}
    (complains : Complains h level v e) (hs : level.survey h v = .ok s) : e ∈ s.complaints h v := by
  rw [Survey.mem_complaints]
  cases complains with
  | required hv ho =>
    right; left
    cases level with
    | node n =>
      cases (Node.survey_absent hv).symm.trans hs
      unfold Node.surveyAbsent
      split
      · cases ho
      · rfl
    | schema schema =>
      cases hs
      simp [Schema.survey, hv]
  | @rule n _ rule _ hv admits hr fails =>
    refine .inl ⟨rule, ?_, fails.mem_violations⟩
    exact Node.rules_survey hv admits hs ▸ hr
  | check hv hr fails =>
    cases hs
    rw [Schema.survey_present hv]
    exact .inr (.inr ⟨_, hr, fails.mem_violations⟩)
  | structureCheck hv hschema hold hr fails =>
    obtain ⟨schema, holds, hschema', hold', rfl⟩ := Survey.structured_eq_ok ((Node.survey_present hv).symm.trans hs)
    cases hschema.symm.trans hschema'
    cases hold.symm.trans hold'
    simp only [if_true, Schema.survey_present hv]
    exact .inr (.inr ⟨_, hr, fails.mem_violations⟩)
  | scalarType hv fits =>
    obtain ⟨b, hb, rfl⟩ := Except.map_eq_ok.mp ((Node.survey_present hv).symm.trans hs)
    cases fits.symm.trans hb
    exact .inr (.inl rfl)
  | sequenceType hv hnone =>
    cases (Node.survey_present hv).symm.trans hs
    simp [Survey.sequence, hnone]
  | mappingType hv hnone =>
    cases (Node.survey_present hv).symm.trans hs
    simp [Survey.mapping, hnone]
  | structureType hv hschema hold =>
    obtain ⟨schema, holds, hschema', hold', rfl⟩ := Survey.structured_eq_ok ((Node.survey_present hv).symm.trans hs)
    cases hschema.symm.trans hschema'
    cases hold.symm.trans hold'
    exact .inr (.inl rfl)
  | undetermined hv hselect he =>
    have hs := (Node.survey_present hv).symm.trans hs
    simp only [Node.surveyPresent, Survey.choice, hselect, he] at hs
    cases hs
    exact .inr (.inl rfl)
  | unknownVariant hv hselect he =>
    have hs := (Node.survey_present hv).symm.trans hs
    simp only [Node.surveyPresent, Survey.choice, hselect, he] at hs
    cases hs
    exact .inr (.inl rfl)

theorem Violation.path_of_wrongVariant {cases : List (Value × Option Node)} {actual problem : String} {e : Violation}
    (he : wrongVariant cases actual problem = .ok e) : e.path = [] := by
  simp only [wrongVariant, bind, Except.bind] at he
  split at he
  · cases he
  · cases he
    rfl

/-- A complaint stands at the value itself. -/
theorem Complains.path_eq_nil {h : Host} {level : Level} {v : Value} {e : Violation}
    (complains : Complains h level v e) :
    e.path = [] := by
  cases complains with
  | required | scalarType | sequenceType | mappingType | structureType => rfl
  | rule _ _ _ fails | check _ _ fails | structureCheck _ _ _ _ fails =>
    obtain ⟨d, -, rfl⟩ := fails
    rfl
  | undetermined _ _ he | unknownVariant _ _ he => exact Violation.path_of_wrongVariant he

/-- What validation reaches has a survey when validation finds something. -/
theorem Leads.survey_ok {h : Host} {a b : Level} {v x : Value} {p : Path} (leads : Leads h a v p b x) :
    ∀ {vs : List Violation}, a.findings h v = .ok vs → ∃ s, b.survey h x = .ok s := by
  induction leads with
  | here =>
    intro vs hw
    obtain ⟨s, hs, -⟩ := Level.findings_eq_ok hw
    exact ⟨s, hs⟩
  | there step _ ih =>
    intro vs hw
    obtain ⟨us, hus, -⟩ := step.findings_ok hw
    exact ih hus

/-! ### Violations and the places they name -/

section Located
variable {h : Host} {s : Schema} {v : Value} {report : Report} {e : Violation}

/-- The violations of a value are exactly the complaints about the places that validation reaches, each
under the path of its place. -/
theorem mem_violations_iff (plain : ∀ rule, (Level.schema s).HasRule h rule → rule.Plain h)
    (hr : s.validate h v = .ok report) :
    e ∈ report.violations ↔
      ∃ p level x e', Leads h (.schema s) v p level x ∧ Complains h level x e' ∧ e = e'.under p := by
  rw [Schema.validate_eq_walk] at hr
  obtain ⟨vs, hvs, rfl⟩ := Except.map_eq_ok.mp hr
  have hw : (Level.schema s).findings h v = .ok vs := hvs
  rw [Report.violations_of, Level.mem_findings hw]
  constructor
  · rintro ⟨p, level, x, e', leads, reports, he⟩
    exact ⟨p, level, x, e', leads, reports.complains fun rule hr => plain rule (leads.hasRule hr), he⟩
  · rintro ⟨p, level, x, e', leads, complains, he⟩
    obtain ⟨survey, hs⟩ := leads.survey_ok hw
    exact ⟨p, level, x, e', leads, ⟨survey, hs, complains.mem_complaints hs⟩, he⟩

/-- Every violation of a value stands at the value that its path leads to. When no rule gives back a report
of its own, following the path reaches the value that the level at the same path complains of, and
the complaint is the violation. A key in the path is a key of the mapping before it, and a position
below a sequence is below the length of the sequence. -/
theorem violation_at_its_path (plain : ∀ rule, (Level.schema s).HasRule h rule → rule.Plain h)
    (hr : s.validate h v = .ok report) (he : e ∈ report.violations) :
    ∃ level x e', Leads h (.schema s) v e.path level x ∧ Follows v e.path x ∧ Complains h level x e' ∧
      e = e'.under e.path ∧
      (∀ p k q, e.path = p ++ .key k :: q →
        ∃ kind entries, Follows v p (.mapping kind entries) ∧ k ∈ entries.map Prod.fst) ∧
      ∀ p segment q, e.path = p ++ segment :: q →
        ∃ a y n z, Leads h (.schema s) v p a y ∧ Level.Step h a y [segment] n z ∧ Leads h (.node n) z q level x ∧
          ∀ rules inner keys, a = .node (.wrapper .sequence rules inner keys) →
            ∃ i length, segment = .index i ∧ y.length? = some length ∧ i < length := by
  obtain ⟨p, level, x, e', leads, complains, rfl⟩ := (mem_violations_iff plain hr).mp he
  have hpath : (e'.under p).path = p := by
    rw [Violation.path_under, complains.path_eq_nil, List.append_nil]
  rw [hpath]
  refine ⟨level, x, e', leads, leads.follows, complains, rfl, ?_, ?_⟩
  · rintro p k q rfl
    exact leads.key_mem
  · rintro p segment q hp
    obtain ⟨a, y, n, z, before, step, after⟩ := leads.at_segment hp
    refine ⟨a, y, n, z, before, step, after, ?_⟩
    rintro rules inner keys rfl
    exact step.position_lt

end Located

/-- Numbers of which none is above three. -/
abbrev smallNumbers : Node :=
  .wrapper .sequence [] (some (.scalar [⟨{ name := "max", check := .builtin .max }, .int 3⟩] .absent)) none

/-- Boxes of numbers of which none is above three. -/
abbrev smallBox : Schema := .mk 0 (.text "Box") [(.text "items", smallNumbers)] [] .absent .absent

theorem smallBox_plain (rule : BoundRule) (hr : (Level.schema smallBox).HasRule .bare rule) : rule.Plain .bare := by
  cases hr with
  | check hr => cases hr
  | field hf below =>
    cases List.mem_singleton.mp hf
    cases below with
    | own hr => cases hr
    | inner below => cases below with
      | own hr =>
        cases List.mem_singleton.mp hr
        exact BoundRule.plain_of_builtin rfl

/-- A number above three in a box is found at its position. -/
theorem violation_at_its_path_of_element :
    ∃ report e, smallBox.validate .bare (.dict [(.text "items", .list [.int 1, .int 5])]) = .ok report ∧
      e ∈ report.violations ∧ e.path = [.field (.text "items"), .index 1] ∧
      ∃ x, Follows (.dict [(.text "items", .list [.int 1, .int 5])]) e.path x := by
  obtain ⟨d, hitems⟩ : ∃ d, walk .bare smallNumbers (.list [.int 1, .int 5])
      = .ok [(Violation.report "max" d []).under [.index 1]] := by
    rw [walk_sequence (by decide) rfl]
    simp only [List.zipIdx_cons, List.zipIdx_nil, List.map_cons, List.map_nil]
    rw [walk_scalar (by decide), walk_scalar (by decide)]
    exact ⟨_, rfl⟩
  have hr : smallBox.validate .bare (.dict [(.text "items", .list [.int 1, .int 5])])
      = .ok (Report.of (.dict [(.text "items", .list [.int 1, .int 5])])
          [((Violation.report "max" d []).under [.index 1]).under [.field (.text "items")]]) := by
    rw [Schema.validate_eq_walk, Schema.walk, Schema.survey_present (by decide), Survey.walk]
    simp only [Schema.fieldBranches, Schema.fields, List.zipIdx_cons, List.zipIdx_nil, List.map_cons, List.map_nil,
      walkBranches_cons, walkBranch, Value.field_dict, hitems]
    rfl
  refine ⟨_, _, hr, List.mem_cons_self, rfl, ?_⟩
  obtain ⟨level, x, e', -, follows, -⟩ := violation_at_its_path smallBox_plain hr List.mem_cons_self
  exact ⟨x, follows⟩

end Conform
