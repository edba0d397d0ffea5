import Conform.Schema.Survey

/-!
The walk: what validation finds in a value, as a list and without a recorder. It is made of surveys, one for
each value on the way: a node's rules come first, then the violation of its own level, then what is
found along each branch in order, seen from where the branch starts, and then the checks. `visit`
records exactly what the walk finds (`visit_eq_walk`).
-/

namespace Conform

/-! ### Adopting -/

namespace Recorder

@[simp] theorem adopt_nil (r : Recorder) : r.adopt [] = r := by simp [adopt]

theorem adopt_append (r : Recorder) (vs ws : List Violation) :
    r.adopt (vs ++ ws) = (r.adopt vs).adopt ws := by simp [adopt, List.append_assoc]

/-- Reporting is adopting a violation at the root. -/
theorem report_eq_adopt (r : Recorder) (kind : String) (details : Details) :
    r.report kind details = r.adopt [Violation.report kind details []] := by
  simp [report, adopt, Violation.under_report]

/-- What is adopted one step further in is adopted moved out by the step. -/
theorem leave_adopt_enter (r : Recorder) (s : Segment) (vs : List Violation) :
    ((r.enter s).adopt vs).leave = r.adopt (vs.map (Violation.under [s])) := by
  simp [adopt, enter, leave, Violation.under_under, Function.comp_def]

end Recorder

namespace BoundRule

/-- What rules find in a value, in order. -/
def violationsAll (h : Host) (rules : List BoundRule) (v : Value) : List Violation :=
  rules.flatMap fun rule => rule.violations h v

@[simp] theorem applyAll_nil (h : Host) (v : Value) (r : Recorder) : applyAll h [] v r = r := rfl

/-- Applying a rule adopts what it finds. -/
theorem apply_eq_adopt (h : Host) (rule : BoundRule) (v : Value) (r : Recorder) :
    rule.apply h v r = r.adopt (rule.violations h v) := by
  unfold apply violations
  split
  · simp
  · exact r.report_eq_adopt _ _
  · rfl

/-- Applying rules adopts what they find. -/
theorem applyAll_eq_adopt (h : Host) (v : Value) :
    ∀ (rules : List BoundRule) (r : Recorder), applyAll h rules v r = r.adopt (violationsAll h rules v)
  | [], r => by simp [applyAll, violationsAll]
  | rule :: rest, r => by
    have ih := applyAll_eq_adopt h v rest (r.adopt (rule.violations h v))
    simp only [applyAll, violationsAll, List.foldl_cons, List.flatMap_cons, apply_eq_adopt,
      Recorder.adopt_append] at ih ⊢
    exact ih

end BoundRule

/-! ### Findings in turn -/

/-- What is found further in, as seen from where the way starts. -/
def inward (way : Path) (found : Except Fault (List Violation)) : Except Fault (List Violation) :=
  found.map fun vs => vs.map (Violation.under way)

/-- What is found first, then what is found next. -/
def andThen {α : Type} (first second : Except Fault (List α)) : Except Fault (List α) :=
  match first with
  | .error f => .error f
  | .ok vs => second.map (vs ++ ·)

/-- What is found in turn, in order. -/
def inTurn {α : Type} : List (Except Fault (List α)) → Except Fault (List α)
  | [] => .ok []
  | first :: rest => andThen first (inTurn rest)

@[simp] theorem andThen_ok_nil {α : Type} (found : Except Fault (List α)) : andThen (.ok []) found = found := by
  cases found <;> rfl

@[simp] theorem andThen_nil {α : Type} (found : Except Fault (List α)) : andThen found (.ok []) = found := by
  cases found <;> simp [andThen, Except.map]

theorem andThen_assoc {α : Type} (a b c : Except Fault (List α)) :
    andThen (andThen a b) c = andThen a (andThen b c) := by
  cases a <;> cases b <;> cases c <;> simp [andThen, Except.map]

theorem inTurn_append {α : Type} (xs ys : List (Except Fault (List α))) :
    inTurn (xs ++ ys) = andThen (inTurn xs) (inTurn ys) := by
  induction xs with
  | nil => simp [inTurn]
  | cons x xs ih => rw [List.cons_append, inTurn, ih, inTurn, andThen_assoc]

/-- What is found in turn is what is found anywhere. -/
theorem mem_inTurn {α : Type} {e : α} : ∀ {found : List (Except Fault (List α))} {vs : List α},
    inTurn found = .ok vs → (e ∈ vs ↔ ∃ ws, .ok ws ∈ found ∧ e ∈ ws)
  | [], vs, h => by
    cases h
    simp
  | .error f :: rest, vs, h => by cases h
  | .ok ws :: rest, vs, h => by
    obtain ⟨us, hus, rfl⟩ := Except.map_eq_ok.mp h
    simp [mem_inTurn hus]

/-- Nothing is found in turn exactly when something goes wrong anywhere. -/
theorem inTurn_fails_iff {α : Type} : ∀ {found : List (Except Fault (List α))},
    (∃ f, inTurn found = .error f) ↔ ∃ f, .error f ∈ found
  | [] => by simp [inTurn]
  | .error f :: rest => by
    constructor
    · intro _
      exact ⟨f, List.mem_cons_self⟩
    · intro _
      exact ⟨f, rfl⟩
  | .ok ws :: rest => by
    have ih : (∃ f, inTurn rest = .error f) ↔ ∃ f, .error f ∈ rest := inTurn_fails_iff
    rw [inTurn]
    cases hrest : inTurn rest <;> simp_all [andThen, Except.map]

@[simp] theorem inward_nil (found : Except Fault (List Violation)) : inward [] found = found := by
  have hid : Violation.under [] = id := funext Violation.under_nil
  cases found <;> simp [inward, Except.map, hid]

theorem inward_andThen (way : Path) (first second : Except Fault (List Violation)) :
    inward way (andThen first second) = andThen (inward way first) (inward way second) := by
  cases first <;> cases second <;> simp [inward, andThen, Except.map]

/-! ### Walking -/

/-- What a survey finds when something is found along its branches. -/
def Survey.gather (s : Survey) (h : Host) (v : Value) (below : Except Fault (List Violation)) :
    Except Fault (List Violation) :=
  andThen (.ok (BoundRule.violationsAll h s.rules v ++ s.own.toList))
    (andThen below (.ok (BoundRule.violationsAll h s.checks v)))

/-- The violations of a value by a node. -/
def walk (h : Host) (node : Node) (v : Value) : Except Fault (List Violation) :=
  match _ : node.survey h v with
  | .error f => .error f
  | .ok s => s.gather h v (inTurn (s.branches.attach.map fun ⟨b, _⟩ =>
    match _ : b.value with
    | .error f => .error f
    | .ok x => inward b.way (walk h b.node x)))
termination_by (v.depth, sizeOf node)
decreasing_by exact (Step.of_branch ‹_› ‹_› ‹_›).smaller

/-- The violations along a branch. -/
def walkBranch (h : Host) (b : Branch) : Except Fault (List Violation) :=
  match b.value with
  | .error f => .error f
  | .ok x => inward b.way (walk h b.node x)

/-- The violations along branches, in order. -/
def walkBranches (h : Host) (branches : List Branch) : Except Fault (List Violation) :=
  inTurn (branches.map (walkBranch h))

/-- The violations that come to light by a survey of a value. -/
def Survey.walk (s : Survey) (h : Host) (v : Value) : Except Fault (List Violation) :=
  s.gather h v (walkBranches h s.branches)

/-- A walk is a survey of the value and walks along its branches. -/
theorem walk_eq (h : Host) (node : Node) (v : Value) :
    walk h node v = match node.survey h v with
      | .error f => .error f
      | .ok s => s.walk h v := by
  rw [walk]
  split
  · next hs => rw [hs]
  · next s hs =>
    rw [hs]
    refine congrArg (s.gather h v) (congrArg inTurn ?_)
    rw [← List.attach_map_val (l := s.branches) (f := walkBranch h)]
    refine List.map_congr_left fun ⟨b, hb⟩ _ => ?_
    simp only [walkBranch]
    split <;> next hx => simp [hx]

@[simp] theorem walkBranches_nil (h : Host) : walkBranches h [] = .ok [] := rfl

theorem walkBranches_cons (h : Host) (b : Branch) (rest : List Branch) :
    walkBranches h (b :: rest) = andThen (walkBranch h b) (walkBranches h rest) := rfl

theorem walkBranches_append (h : Host) (bs cs : List Branch) :
    walkBranches h (bs ++ cs) = andThen (walkBranches h bs) (walkBranches h cs) := by
  rw [walkBranches, List.map_append, inTurn_append]
  rfl

/-- What a survey finds, part by part. -/
theorem Survey.walk_eq_ok {s : Survey} {h : Host} {v : Value} {vs : List Violation} :
    s.walk h v = .ok vs ↔ ∃ below, walkBranches h s.branches = .ok below ∧
      vs = BoundRule.violationsAll h s.rules v ++ s.own.toList ++ (below ++ BoundRule.violationsAll h s.checks v) := by
  unfold Survey.walk Survey.gather
  cases walkBranches h s.branches <;> simp [andThen, Except.map, eq_comm]

/-- What holds of a value by a node whenever it holds along every branch holds of all values by all
nodes. -/
theorem walk_induction (h : Host) {P : Node → Value → Prop}
    (step : ∀ node v, (∀ p m x, Step h node v p m x → P m x) → P node v) (node : Node) (v : Value) : P node v :=
  step node v fun _ m x _ => walk_induction h step m x
termination_by (v.depth, sizeOf node)
decreasing_by exact Step.smaller ‹_›

/-! ### Visiting and walking -/

theorem walkBranches_toward (h : Host) (way : Path) (turn : Turn) (node : Node) (v : Value) :
    walkBranches h (Branch.toward way turn (some node) v) = inward way (walk h node v) := andThen_nil _

theorem Survey.adopt_walk (s : Survey) (h : Host) (v : Value) (r : Recorder) :
    (s.walk h v).map r.adopt
      = (walkBranches h s.branches).map fun below =>
          BoundRule.applyAll h s.checks v (((BoundRule.applyAll h s.rules v r).adopt s.own.toList).adopt below) := by
  unfold Survey.walk Survey.gather
  cases walkBranches h s.branches <;>
    simp [andThen, Except.map, BoundRule.applyAll_eq_adopt, Recorder.adopt_append]

/-- Adopting what is found first and next is adopting the one after the other. -/
theorem Recorder.adopt_andThen (r : Recorder) (first second : Except Fault (List Violation)) :
    (andThen first second).map r.adopt = match first with
      | .error f => .error f
      | .ok vs => second.map (r.adopt vs).adopt := by
  cases first <;> cases second <;> simp [andThen, Except.map, Recorder.adopt_append]

/-- An action that adopts findings adopts them moved out when it is run one step further in. -/
theorem Recorder.inside_eq {r : Recorder} {s : Segment} {action : Recorder → Except Fault Recorder}
    {found : Except Fault (List Violation)} (h : action (r.enter s) = found.map (r.enter s).adopt) :
    r.inside s action = (inward [s] found).map r.adopt := by
  rw [Recorder.inside, h]
  cases found with
  | error f => rfl
  | ok vs => simp [inward, Except.map, Recorder.leave_adopt_enter]

/-- Visiting by a node adopts what the walk finds. -/
def Agrees (h : Host) (node : Node) (v : Value) : Prop :=
  ∀ r, visit h node v r = (walk h node v).map r.adopt

theorem visitInner_eq {h : Host} {node : Option Node} {v : Value} (ih : ∀ m, node = some m → Agrees h m v)
    (turn : Turn) (r : Recorder) :
    visitInner h node v r = (walkBranches h (Branch.toward [] turn node v)).map r.adopt := by
  unfold visitInner
  cases node with
  | none => simp [Branch.toward, Except.map]
  | some m =>
    rw [walkBranches_toward, inward_nil]
    exact ih m rfl r

theorem visitItems_eq {h : Host} {node : Node} : ∀ {items : List Value} (_ : ∀ x ∈ items, Agrees h node x)
    (position : Nat) (r : Recorder),
    visitItems h node items position r
      = (walkBranches h ((items.zipIdx position).flatMap fun (x, i) =>
          Branch.toward [.index i] .inner (some node) x)).map r.adopt
  | [], _, position, r => by simp [visitItems, Except.map]
  | x :: rest, ih, position, r => by
    have later := visitItems_eq (fun y hy => ih y (List.mem_cons_of_mem _ hy)) (position + 1)
    unfold visitItems
    rw [Recorder.inside_eq (ih x List.mem_cons_self _), List.zipIdx_cons, List.flatMap_cons, walkBranches_append,
      walkBranches_toward, Recorder.adopt_andThen]
    cases inward [.index position] (walk h node x) with
    | error f => rfl
    | ok vs => exact later _

theorem visitBoth_eq {h : Host} {keys inner : Option Node} {k x : Value} (ihk : ∀ m, keys = some m → Agrees h m k)
    (ihx : ∀ m, inner = some m → Agrees h m x) (r : Recorder) :
    (match visitInner h keys k r with
      | .error f => .error f
      | .ok r => visitInner h inner x r : Except Fault Recorder)
      = (andThen (walkBranches h (Branch.toward [] .keys keys k))
          (walkBranches h (Branch.toward [] .inner inner x))).map r.adopt := by
  rw [visitInner_eq ihk .keys r, Recorder.adopt_andThen]
  cases walkBranches h (Branch.toward [] .keys keys k) with
  | error f => rfl
  | ok vs => exact visitInner_eq ihx .inner _

theorem visitEntries_eq {h : Host} {keys inner : Option Node} : ∀ {entries : List (Value × Value)}
    (_ : ∀ k x, (k, x) ∈ entries → (∀ m, keys = some m → Agrees h m k) ∧ ∀ m, inner = some m → Agrees h m x)
    (r : Recorder),
    visitEntries h keys inner entries r
      = (walkBranches h (entries.flatMap fun (k, x) =>
          Branch.toward [.key k] .keys keys k ++ Branch.toward [.key k] .inner inner x)).map r.adopt
  | [], _, r => by simp [visitEntries, Except.map]
  | (k, x) :: rest, ih, r => by
    have later := visitEntries_eq fun k' x' hm => ih k' x' (List.mem_cons_of_mem _ hm)
    obtain ⟨ihk, ihx⟩ := ih k x List.mem_cons_self
    have moved (turn : Turn) (node : Option Node) (y : Value) :
        inward [.key k] (walkBranches h (Branch.toward [] turn node y))
          = walkBranches h (Branch.toward [.key k] turn node y) := by
      cases node with
      | none => rfl
      | some m => rw [walkBranches_toward, walkBranches_toward, inward_nil]
    unfold visitEntries
    dsimp only
    rw [Recorder.inside_eq (visitBoth_eq ihk ihx _), inward_andThen, moved, moved, List.flatMap_cons,
      walkBranches_append, walkBranches_append]
    generalize andThen (walkBranches h (Branch.toward [.key k] .keys keys k)) _ = here
    rw [Recorder.adopt_andThen]
    cases here with
    | error f => rfl
    | ok vs => exact later _

theorem visitField_eq {h : Host} {v name : Value} {node : Node} (ih : ∀ x, v.field name = .ok x → Agrees h node x)
    (r : Recorder) :
    (match v.field name, @Value.depth_field_lt v name with
      | .error f, _ => .error f
      | .ok w, _ => visit h node w r : Except Fault Recorder)
      = (match v.field name with
        | .error f => .error f
        | .ok w => walk h node w : Except Fault (List Violation)).map r.adopt := by
  generalize @Value.depth_field_lt v name = lower
  revert ih lower
  generalize v.field name = found
  intro ih _
  cases found with
  | error f => rfl
  | ok w => exact ih w rfl r

theorem inward_field {h : Host} {v name : Value} {node : Node} (position : Nat) :
    inward [FieldSpec.segmentOf name] (match v.field name with
      | .error f => .error f
      | .ok w => walk h node w)
      = walkBranch h ⟨[FieldSpec.segmentOf name], .field position, node, v.field name⟩ := by
  unfold walkBranch
  dsimp only
  cases v.field name <;> rfl

theorem visitFields_eq {h : Host} {v : Value} (hv : ¬v.isAbsent = true) : ∀ {fields : List (Value × Node)}
    (_ : ∀ name node, (name, node) ∈ fields → ∀ x, v.field name = .ok x → Agrees h node x)
    (position : Nat) (r : Recorder),
    visitFields h v hv fields r = (walkBranches h (Schema.fieldBranches v fields position)).map r.adopt
  | [], _, position, r => by simp [visitFields, Schema.fieldBranches, Except.map]
  | (name, node) :: rest, ih, position, r => by
    have later := visitFields_eq hv (fun n m hm => ih n m (List.mem_cons_of_mem _ hm)) (position + 1)
    unfold visitFields
    dsimp only
    rw [Recorder.inside_eq (visitField_eq (ih name node List.mem_cons_self) _), inward_field position,
      Schema.fieldBranches, List.zipIdx_cons, List.map_cons, walkBranches_cons, Recorder.adopt_andThen]
    cases walkBranch h ⟨[FieldSpec.segmentOf name], .field position, node, v.field name⟩ with
    | error f => rfl
    | ok vs => exact later _

/-! ### Visiting, kind by kind -/

section Kinds
variable {h : Host} {rules : List BoundRule} {v : Value}

theorem agrees_absent (node : Node) (hv : v.isAbsent = true) : Agrees h node v := by
  intro r
  rw [walk_eq]
  unfold visit
  rw [dif_pos hv, Node.survey_absent hv]
  refine Eq.trans ?_ (Survey.adopt_walk _ h v r).symm
  rcases node with _ | (_ | _ | _) | _ | _ <;> simp [Node.surveyAbsent, Except.map]

theorem agrees_scalar {type : Value} (hv : ¬v.isAbsent = true) : Agrees h (.scalar rules type) v := by
  intro r
  rw [walk_eq]
  unfold visit
  rw [dif_neg hv, Node.survey_present hv]
  dsimp only [Node.surveyPresent]
  cases v.fits type with
  | error f => rfl
  | ok fits =>
    refine Eq.trans ?_ (Survey.adopt_walk _ h v r).symm
    cases fits <;> simp [Except.map]

theorem agrees_optional {inner keys : Option Node} (hv : ¬v.isAbsent = true)
    (step : ∀ m, inner = some m → Agrees h m v) : Agrees h (.wrapper .optional rules inner keys) v := by
  intro r
  rw [walk_eq]
  unfold visit
  rw [dif_neg hv, Node.survey_present hv]
  refine Eq.trans ?_ (Survey.adopt_walk _ h v r).symm
  have inner_eq := visitInner_eq step .inner
  simp [inner_eq]

theorem agrees_sequence {inner keys : Option Node} (hv : ¬v.isAbsent = true)
    (step : ∀ items, v.elements? = some items → ∀ m, inner = some m → ∀ x ∈ items, Agrees h m x) :
    Agrees h (.wrapper .sequence rules inner keys) v := by
  intro r
  rw [walk_eq]
  unfold visit
  rw [dif_neg hv, Node.survey_present hv]
  refine Eq.trans ?_ (Survey.adopt_walk _ h v r).symm
  dsimp only [Survey.sequence]
  generalize @Value.depthItems_lt v = lower
  revert lower step
  generalize v.elements? = elements
  intro step lower
  cases elements with
  | none => simp [Except.map]
  | some items =>
    cases inner with
    | none =>
      have hnone : items.zipIdx.flatMap (fun (x, i) => Branch.toward [.index i] .inner none x) = [] :=
        List.flatMap_eq_nil_iff.mpr fun _ _ => rfl
      simp [hnone, Except.map]
    | some m => simp [visitItems_eq (step items rfl m rfl)]

theorem agrees_mapping {inner keys : Option Node} (hv : ¬v.isAbsent = true)
    (step : ∀ entries, v.entries? = some entries → ∀ k x, (k, x) ∈ entries →
      (∀ m, keys = some m → Agrees h m k) ∧ ∀ m, inner = some m → Agrees h m x) :
    Agrees h (.wrapper .mapping rules inner keys) v := by
  intro r
  rw [walk_eq]
  unfold visit
  rw [dif_neg hv, Node.survey_present hv]
  refine Eq.trans ?_ (Survey.adopt_walk _ h v r).symm
  dsimp only [Survey.mapping]
  generalize @Value.depthEntries_lt v = lower
  revert lower step
  generalize v.entries? = found
  intro step lower
  cases found with
  | none => simp [Except.map]
  | some entries => simp [visitEntries_eq (step entries rfl)]

theorem agrees_nested {target : Target} (hv : ¬v.isAbsent = true)
    (step : ∀ s, h.requireSchema target = .ok s → v.canHold s = .ok true →
      ∀ name node, (name, node) ∈ s.fields → ∀ x, v.field name = .ok x → Agrees h node x) :
    Agrees h (.nested rules target) v := by
  intro r
  rw [walk_eq]
  unfold visit
  rw [dif_neg hv, Node.survey_present hv]
  dsimp only [Node.surveyPresent, Survey.structured]
  cases hs : h.requireSchema target with
  | error f => rfl
  | ok s =>
    dsimp only
    cases hold : v.canHold s with
    | error f => rfl
    | ok holds =>
      refine Eq.trans ?_ (Survey.adopt_walk _ h v r).symm
      cases holds with
      | false => simp [Except.map]
      | true =>
        simp only [if_true, visitFields_eq hv (step s hs hold) 0, Schema.survey_present hv]
        cases walkBranches h (Schema.fieldBranches v s.fields 0) <;> simp [Except.map]

theorem agrees_variants {cases : List (Value × Option Node)} {tag : Value} (hv : ¬v.isAbsent = true)
    (step : ∀ name node, selectCase h tag v cases = .ok (name, some (some node)) →
      Agrees h node (variantPayload tag v)) : Agrees h (.variants rules cases tag) v := by
  intro r
  rw [walk_eq]
  unfold visit
  rw [dif_neg hv, Node.survey_present hv]
  dsimp only [Node.surveyPresent, Survey.choice]
  generalize @size_selectCase h tag v cases = smaller
  revert smaller step
  generalize selectCase h tag v cases = selected
  intro step _
  rcases selected with f | ⟨name, _ | _ | node⟩
  · dsimp only
    cases Violation.undetermined cases f with
    | error g => rfl
    | ok x => exact Eq.trans (by simp [Recorder.record, Except.map]) (Survey.adopt_walk _ h v r).symm
  · dsimp only
    cases Violation.unknownVariant cases name with
    | error g => rfl
    | ok x => exact Eq.trans (by simp [Recorder.record, Except.map]) (Survey.adopt_walk _ h v r).symm
  · exact Eq.trans (by simp [Branch.toward, Except.map]) (Survey.adopt_walk _ h v r).symm
  · refine Eq.trans ?_ (Survey.adopt_walk _ h v r).symm
    dsimp only
    rw [walkBranches_toward, Recorder.inside_eq (step name node rfl _)]
    simp

end Kinds

/-- Visiting adopts what the walk finds. -/
theorem visit_eq_walk (h : Host) (node : Node) (v : Value) (r : Recorder) :
    visit h node v r = (walk h node v).map r.adopt := by
  refine walk_induction h (P := Agrees h) (fun node v ih => ?_) node v r
  by_cases hv : v.isAbsent = true
  · exact agrees_absent node hv
  cases node with
  | scalar rules type => exact agrees_scalar hv
  | wrapper wrapper rules inner keys => cases wrapper with
    | optional =>
      refine agrees_optional hv ?_
      rintro m rfl
      exact ih [] m v (.optional hv)
    | sequence =>
      refine agrees_sequence hv ?_
      rintro items hitems m rfl x hx
      obtain ⟨i, hi⟩ := List.mem_iff_getElem?.mp hx
      exact ih [.index i] m x (.element hitems hi)
    | mapping =>
      refine agrees_mapping hv fun entries hentries k x hm => ?_
      obtain ⟨kind, rfl⟩ := Value.entries?_eq_some hentries
      constructor
      · rintro m rfl
        exact ih [.key k] m k (.key hm)
      · rintro m rfl
        exact ih [.key k] m x (.entry hm)
  | nested rules target =>
    exact agrees_nested hv fun s hs hold name node hf x hx =>
      ih _ node x (.field hv (Host.requireSchema_eq_ok.mp hs) hold hf hx)
  | variants rules cases tag =>
    exact agrees_variants hv fun name node hs => ih _ node _ (.payload hv hs)

/-- What a recorder that started empty builds after adopting is the report of what it adopted. -/
theorem Recorder.build_adopt_empty (v : Value) (found : Except Fault (List Violation)) :
    (found.map Recorder.empty.adopt).map (fun r => r.build v) = found.map (Report.of v) := by
  have hid : Violation.under [] = id := funext Violation.under_nil
  cases found <;> simp [Except.map, Recorder.build, Recorder.adopt, Recorder.empty, hid]

/-- Validating by a node reports what the walk finds. -/
theorem Node.validate_eq_walk (node : Node) (h : Host) (v : Value) :
    node.validate h v = (walk h node v).map (Report.of v) := by
  rw [Node.validate, visit_eq_walk, Recorder.build_adopt_empty]

/-- The violations of a value by a schema. -/
def Schema.walk (s : Schema) (h : Host) (v : Value) : Except Fault (List Violation) :=
  (s.survey v).walk h v

/-- Walking by a schema adopts what the walk finds. -/
theorem Schema.collect_eq_walk (s : Schema) (h : Host) {v : Value} (hv : ¬v.isAbsent = true) (r : Recorder) :
    s.collect h v hv r = (s.walk h v).map r.adopt := by
  have agrees (name : Value) (node : Node) (_ : (name, node) ∈ s.fields) (x : Value)
      (_ : v.field name = .ok x) : Agrees h node x := visit_eq_walk h node x
  have fields := visitFields_eq hv agrees 0 r
  rw [Schema.collect, fields, Schema.walk, Survey.adopt_walk, Schema.survey_present hv]
  cases walkBranches h (Schema.fieldBranches v s.fields 0) <;> simp [Except.map]

/-- Validating by a schema reports what the walk finds. -/
theorem Schema.validate_eq_walk (s : Schema) (h : Host) (v : Value) :
    s.validate h v = (s.walk h v).map (Report.of v) := by
  by_cases hv : v.isAbsent = true
  · simp [Schema.validate, Schema.walk, Survey.walk, Survey.gather, Schema.survey, hv, andThen, Except.map,
      BoundRule.violationsAll]
  · rw [Schema.validate, dif_neg hv, s.collect_eq_walk h hv, Recorder.build_adopt_empty]

end Conform
