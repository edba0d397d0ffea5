import Conform.Proofs.Compiled
import Conform.Proofs.Replacing
import Conform.Schema.Walk

/-!
Schemas without their numbers. A schema has a serial number, which says in what order it was made and nothing
about values. Two schemas that are the same without numbers, all the way down to the schemas that they
refer to, have the same fields, nodes and rules (`Schema.unnumbered`), validate every value alike
(`Schema.validate_unnumbered`), and whatever is compiled with the one is compiled with the other
(`Workshop.compile_unnumbered`).
-/

namespace Conform

mutual

/-- A node whose schemas have no numbers. -/
def Node.unnumbered : Node → Node
  | .scalar rules type => .scalar rules type
  | .wrapper w rules inner keys => .wrapper w rules (Node.unnumberedInner inner) (Node.unnumberedInner keys)
  | .nested rules target => .nested rules target.unnumbered
  | .variants rules cases tag => .variants rules (Node.unnumberedCases cases) tag

def Node.unnumberedInner : Option Node → Option Node
  | none => none
  | some n => some n.unnumbered

def Node.unnumberedCases : List (Value × Option Node) → List (Value × Option Node)
  | [] => []
  | (name, n) :: rest => (name, Node.unnumberedInner n) :: Node.unnumberedCases rest

def Target.unnumbered : Target → Target
  | .schema s => .schema s.unnumbered
  | .value v => .value v

/-- A schema without a number, whose schemas have none either. -/
def Schema.unnumbered : Schema → Schema
  | .mk _ name fields checks targetType description =>
    .mk 0 name (Schema.unnumberedFields fields) checks targetType description

def Schema.unnumberedFields : List (Value × Node) → List (Value × Node)
  | [] => []
  | (name, n) :: rest => (name, n.unnumbered) :: Schema.unnumberedFields rest

end

theorem Node.unnumberedInner_eq (n : Option Node) : Node.unnumberedInner n = n.map Node.unnumbered := by
  cases n <;> rfl

theorem Node.unnumberedCases_eq : ∀ cases : List (Value × Option Node),
    Node.unnumberedCases cases = cases.map fun (name, n) => (name, n.map Node.unnumbered)
  | [] => rfl
  | (name, n) :: rest => by
    rw [List.map_cons, ← Node.unnumberedCases_eq rest]
    exact congrArg (fun m => (name, m) :: Node.unnumberedCases rest) (Node.unnumberedInner_eq n)

theorem Schema.unnumberedFields_eq : ∀ fields : List (Value × Node),
    Schema.unnumberedFields fields = fields.map fun (name, n) => (name, n.unnumbered)
  | [] => rfl
  | (name, n) :: rest => by
    rw [List.map_cons, ← Schema.unnumberedFields_eq rest]
    rfl

namespace Schema
variable (s : Schema)

@[simp] theorem name_unnumbered : s.unnumbered.name = s.name := by
  cases s
  rfl

@[simp] theorem fields_unnumbered :
    s.unnumbered.fields = s.fields.map fun (name, n) => (name, n.unnumbered) := by
  rw [← unnumberedFields_eq]
  cases s
  rfl

@[simp] theorem checks_unnumbered : s.unnumbered.checks = s.checks := by
  cases s
  rfl

@[simp] theorem targetType_unnumbered : s.unnumbered.targetType = s.targetType := by
  cases s
  rfl

end Schema

mutual

theorem Node.unnumbered_unnumbered : ∀ n : Node, n.unnumbered.unnumbered = n.unnumbered
  | .scalar rules type => by rw [Node.unnumbered, Node.unnumbered]
  | .wrapper w rules inner keys => by
    rw [Node.unnumbered, Node.unnumbered, Node.unnumberedInner_twice inner, Node.unnumberedInner_twice keys]
  | .nested rules target => by rw [Node.unnumbered, Node.unnumbered, Target.unnumbered_unnumbered target]
  | .variants rules cases tag => by rw [Node.unnumbered, Node.unnumbered, Node.unnumberedCases_twice cases]

theorem Node.unnumberedInner_twice : ∀ n : Option Node,
    Node.unnumberedInner (Node.unnumberedInner n) = Node.unnumberedInner n
  | none => by rw [Node.unnumberedInner, Node.unnumberedInner]
  | some n => by rw [Node.unnumberedInner, Node.unnumberedInner, Node.unnumbered_unnumbered n]

theorem Node.unnumberedCases_twice : ∀ cases : List (Value × Option Node),
    Node.unnumberedCases (Node.unnumberedCases cases) = Node.unnumberedCases cases
  | [] => by rw [Node.unnumberedCases, Node.unnumberedCases]
  | (name, n) :: rest => by
    rw [Node.unnumberedCases, Node.unnumberedCases, Node.unnumberedInner_twice n, Node.unnumberedCases_twice rest]

theorem Target.unnumbered_unnumbered : ∀ t : Target, t.unnumbered.unnumbered = t.unnumbered
  | .schema s => by rw [Target.unnumbered, Target.unnumbered, Schema.unnumbered_unnumbered s]
  | .value v => by rw [Target.unnumbered, Target.unnumbered]

theorem Schema.unnumbered_unnumbered : ∀ s : Schema, s.unnumbered.unnumbered = s.unnumbered
  | .mk serial name fields checks targetType description => by
    rw [Schema.unnumbered, Schema.unnumbered, Schema.unnumberedFields_twice fields]

theorem Schema.unnumberedFields_twice : ∀ fields : List (Value × Node),
    Schema.unnumberedFields (Schema.unnumberedFields fields) = Schema.unnumberedFields fields
  | [] => by rw [Schema.unnumberedFields, Schema.unnumberedFields]
  | (name, n) :: rest => by
    rw [Schema.unnumberedFields, Schema.unnumberedFields, Node.unnumbered_unnumbered n,
      Schema.unnumberedFields_twice rest]

end

theorem Value.assign_map {α β : Type} (key : Value) (a : α) (f : α → β) : ∀ entries : List (Value × α),
    assign key (f a) (entries.map fun (k, a) => (k, f a)) = (assign key a entries).map fun (k, a) => (k, f a)
  | [] => rfl
  | (k, b) :: rest => by
    rw [List.map_cons, assign, assign, assign_map key a f rest]
    split <;> rfl

/-! ### Validating -/

section Validating
variable (h : Host) (v : Value)

/-- A branch to a node without numbers. -/
def Branch.unnumbered (b : Branch) : Branch := { b with node := b.node.unnumbered }

/-- A survey whose branches lead to nodes without numbers. -/
def Survey.unnumbered (s : Survey) : Survey := { s with branches := s.branches.map Branch.unnumbered }

theorem Survey.unnumbered_unnumbered (s : Survey) : s.unnumbered.unnumbered = s.unnumbered := by
  simp [Survey.unnumbered, Branch.unnumbered, Function.comp_def, Node.unnumbered_unnumbered]

/-- Leaving numbers out as a replacement. -/
def Replacement.unnumbered : Replacement where
  rules := id
  checks := id
  node := fun _ => Node.unnumbered
  rules_nil := rfl
  checks_nil := rfl

theorem Schema.of_unnumbered (s : Schema) : Replacement.unnumbered.OfSchema s s.unnumbered where
  name := s.name_unnumbered
  targetType := s.targetType_unnumbered
  fields := s.fields_unnumbered.trans (Value.reassign_const Node.unnumbered s.fields).symm
  checks := s.checks_unnumbered

theorem Schema.survey_unnumbered (s : Schema) : s.unnumbered.survey v = (s.survey v).unnumbered :=
  s.of_unnumbered.survey_eq

/-- A structure of a class or an object keeps the schema that this stands for, with its numbers. -/
theorem Node.of_unnumbered (n : Node) : n.unnumbered = n ∨ Replacement.unnumbered.Of h h n n.unnumbered := by
  cases n with
  | scalar rules type => exact .inl rfl
  | wrapper w rules inner keys =>
    rw [unnumbered, unnumberedInner_eq, unnumberedInner_eq]
    exact .inr (.wrapper w rules inner keys)
  | nested rules target => cases target with
    | value w => exact .inl rfl
    | schema s => exact .inr (.nested rules rfl fun s _ => s.of_unnumbered)
  | variants rules cases tag =>
    rw [unnumbered, unnumberedCases_eq]
    have replaced := Value.reassign_const (Option.map Node.unnumbered) cases
    exact .inr (replaced ▸ .variants rules cases tag)

/-- Numbers change no survey but for the numbers in the nodes that it goes on with. -/
theorem Node.survey_unnumbered (n : Node) :
    (n.unnumbered.survey h v).map Survey.unnumbered = (n.survey h v).map Survey.unnumbered := by
  obtain same | of := n.of_unnumbered h
  · rw [same]
  · rw [of.survey_eq fun _ => rfl]
    rcases n.survey h v with f | s
    · rfl
    · exact congrArg Except.ok s.unnumbered_unnumbered

theorem walkBranches_alike : ∀ {bs bs' : List Branch}, bs'.map Branch.unnumbered = bs.map Branch.unnumbered →
    (∀ b ∈ bs, ∀ x, b.value = .ok x → ∀ m, m.unnumbered = b.node.unnumbered → walk h m x = walk h b.node x) →
    walkBranches h bs' = walkBranches h bs
  | [], bs', alike, _ => by
    obtain rfl := List.map_eq_nil_iff.mp alike
    rfl
  | b :: bs, [], alike, _ => by cases alike
  | b :: bs, b' :: bs', alike, ih => by
    rw [List.map_cons, List.map_cons, List.cons.injEq] at alike
    obtain ⟨way, turn, node, value⟩ := b
    obtain ⟨way', turn', node', value'⟩ := b'
    simp only [Branch.unnumbered, Branch.mk.injEq] at alike
    obtain ⟨⟨rfl, rfl, hnode, rfl⟩, alike⟩ := alike
    rw [walkBranches_cons, walkBranches_cons,
      walkBranches_alike alike fun b hb => ih b (List.mem_cons_of_mem _ hb)]
    congr 1
    unfold walkBranch
    rcases value' with f | x
    · rfl
    · exact congrArg (inward way') (ih _ List.mem_cons_self x rfl node' hnode)

/-- Surveys that differ in numbers only find the same when the nodes that they go on with do. -/
theorem Survey.walk_alike {s s' : Survey} (alike : s'.unnumbered = s.unnumbered)
    (ih : ∀ b ∈ s.branches, ∀ x, b.value = .ok x → ∀ m, m.unnumbered = b.node.unnumbered →
      Conform.walk h m x = Conform.walk h b.node x) : s'.walk h v = s.walk h v := by
  obtain ⟨rules, own, branches, checks⟩ := s
  obtain ⟨rules', own', branches', checks'⟩ := s'
  simp only [unnumbered, Survey.mk.injEq] at alike
  obtain ⟨rfl, rfl, hb, rfl⟩ := alike
  unfold Survey.walk gather
  rw [walkBranches_alike h hb ih]

theorem walk_alike (node : Node) : ∀ m : Node, m.unnumbered = node.unnumbered → walk h m v = walk h node v := by
  refine walk_induction h (P := fun node v => ∀ m : Node, m.unnumbered = node.unnumbered →
    walk h m v = walk h node v) (fun node v ih m hm => ?_) node v
  have surveys : (m.survey h v).map Survey.unnumbered = (node.survey h v).map Survey.unnumbered := by
    rw [← Node.survey_unnumbered, hm, Node.survey_unnumbered]
  rw [walk_eq, walk_eq]
  rcases hs : node.survey h v with f | s <;> rcases hs' : m.survey h v with f' | s' <;>
    simp only [hs, hs', Except.map, reduceCtorEq, Except.error.injEq, Except.ok.injEq] at surveys
  · rw [surveys]
  · exact Survey.walk_alike h v surveys fun b hb x hx => ih _ _ _ (Step.of_branch hs hb hx)

/-- A schema reports of every value what it reports without numbers. -/
theorem Schema.validate_unnumbered (s : Schema) : s.unnumbered.validate h v = s.validate h v := by
  rw [validate_eq_walk, validate_eq_walk, walk, walk]
  refine congrArg _ (Survey.walk_alike h v ?_ fun b _ x _ m hm => walk_alike h x b.node m hm)
  rw [survey_unnumbered, Survey.unnumbered_unnumbered]

end Validating

/-! ### Shapes -/

mutual

/-- A shape whose schemas have no numbers. -/
def Shape.unnumbered : Shape → Shape
  | .mk kind rules type inner keys target cases tag =>
    .mk kind rules type (Shape.unnumberedInner inner) (Shape.unnumberedInner keys) target.unnumbered
      (Shape.unnumberedChoice cases) tag

def Shape.unnumberedInner : Option Shape → Option Shape
  | none => none
  | some s => some s.unnumbered

def Shape.unnumberedChoice : Option (List (Value × Payload)) → Option (List (Value × Payload))
  | none => none
  | some cases => some (Shape.unnumberedCases cases)

def Shape.unnumberedCases : List (Value × Payload) → List (Value × Payload)
  | [] => []
  | (name, payload) :: rest => (name, payload.unnumbered) :: Shape.unnumberedCases rest

def Payload.unnumbered : Payload → Payload
  | .shape s => .shape s.unnumbered
  | .target t => .target t.unnumbered

end

namespace Shape

@[simp] theorem kind_unnumbered (s : Shape) : s.unnumbered.kind = s.kind := by
  cases s
  rfl

@[simp] theorem rules_unnumbered (s : Shape) : s.unnumbered.rules = s.rules := by
  cases s
  rfl

@[simp] theorem unnumbered_scalar (type : Value) (rules : List Rule) :
    (scalar type rules).unnumbered = scalar type rules := rfl

@[simp] theorem unnumbered_wrapper (w : Wrapper) (inner keys : Option Shape) (rules : List Rule) :
    (wrapper w inner keys rules).unnumbered = wrapper w (unnumberedInner inner) (unnumberedInner keys) rules := rfl

@[simp] theorem unnumbered_nested (target : Target) (rules : List Rule) :
    (nested target rules).unnumbered = nested target.unnumbered rules := rfl

@[simp] theorem unnumbered_variants (cases : List (Value × Payload)) (tag : Value) (rules : List Rule) :
    (variants cases tag rules).unnumbered = variants (unnumberedCases cases) tag rules := rfl

theorem unnumberedCases_eq : ∀ cases : List (Value × Payload),
    unnumberedCases cases = cases.map fun (name, payload) => (name, payload.unnumbered)
  | [] => rfl
  | (name, payload) :: rest => by
    rw [List.map_cons, ← unnumberedCases_eq rest]
    rfl

theorem unnumberedCases_assign (key : Value) (payload : Payload) (cases : List (Value × Payload)) :
    unnumberedCases (Value.assign key payload cases) = Value.assign key payload.unnumbered (unnumberedCases cases) := by
  rw [unnumberedCases_eq, unnumberedCases_eq, ← Value.assign_map]

theorem declaredType_unnumbered : ∀ s : Shape, s.unnumbered.declaredType = s.declaredType
  | .mk kind rules type inner keys target cases tag => by
    rw [unnumbered]
    unfold declaredType
    cases kind with
    | optional =>
      rcases inner with _ | s
      · rw [unnumberedInner]
      · rw [unnumberedInner]
        exact declaredType_unnumbered s
    | _ => rfl

theorem describe_unnumbered : ∀ s : Shape, s.unnumbered.describe = s.describe
  | .mk kind rules type inner keys target cases tag => by
    have names : (((unnumberedChoice cases).getD []).map Prod.fst) = ((cases.getD []).map Prod.fst) := by
      rcases cases with _ | cases
      · rw [unnumberedChoice]
      · rw [unnumberedChoice, unnumberedCases_eq]
        simp [Function.comp_def]
    rw [unnumbered]
    unfold describe
    cases kind with
    | scalar => rfl
    | enum => simp only [names]
    | nested =>
      rcases target with s | v
      · rw [Target.unnumbered]
        simp only [Target.nameAttribute?, Schema.name_unnumbered]
      · rw [Target.unnumbered]
    | optional | sequence | mapping =>
      rcases inner with _ | s
      · rw [unnumberedInner]
      · rw [unnumberedInner]
        simp only [describe_unnumbered s]

theorem place_unnumbered (kinds : List FieldKind) (rule : Rule) : ∀ s : Shape,
    s.unnumbered.place kinds rule = (s.place kinds rule).map unnumbered
  | .mk kind rules type inner keys target cases tag => by
    rw [unnumbered]
    unfold place
    split
    · rw [Option.map_some, unnumbered]
    · split
      · rcases inner with _ | s
        · rw [unnumberedInner]
          dsimp only
          split <;> simp [unnumbered, unnumberedInner, scalar, Target.unnumbered, unnumberedChoice]
        · rw [unnumberedInner]
          dsimp only
          rw [place_unnumbered kinds rule s, Option.map_map, Option.map_map]
          congr 1
      · rfl

end Shape

/-! ### Compiling -/

/-- No parameter check of a table tells a shape from one whose schemas have no numbers. Those of the engine never
do. -/
def FunctionTable.Impartial (t : FunctionTable) (h : Host) : Prop :=
  ∀ f ∈ t.functions, ∀ g, f.checkParam = some (.custom g) → ∀ (param : Value) (s : Shape),
    h.callValue g [param, s.unnumbered.toObject] = h.callValue g [param, s.toObject]

theorem FunctionTable.default_impartial {h : Host} : FunctionTable.default.Impartial h := by
  intro f hf g hg
  exact (FunctionTable.checkParam_builtins hf g hg).elim

theorem ParameterCheck.run_unnumbered {h : Host} {c : ParameterCheck} {param : Value} {s : Shape}
    (custom : ∀ g, c = .custom g →
      h.callValue g [param, s.unnumbered.toObject] = h.callValue g [param, s.toObject]) :
    c.run h param s.unnumbered = c.run h param s := by
  unfold run answer
  cases c with
  | ordinal | equal | pattern =>
    simp only [checkOrdinal, checkEqual, checkPattern, Shape.declaredType_unnumbered]
  | length => simp only [checkLength, Shape.declaredType_unnumbered, Shape.kind_unnumbered]
  | predicate | oneOf => rfl
  | custom g => exact congrArg _ (custom g rfl)

namespace Workshop
variable {w : Workshop} {t : FunctionTable}

theorem lookUp_withTable (ht : t.functions = w.table.functions) (name : String) (site : Site) :
    { w with table := t }.lookUp name site = w.lookUp name site := by
  simp only [lookUp, FunctionTable.find?, FunctionTable.names, ht]

theorem checkTarget_unnumbered (target : Target) (site : Site) :
    { w with table := t }.checkTarget target.unnumbered site = w.checkTarget target site := by
  rcases target with s | v <;> rw [Target.unnumbered]
  · rfl
  · cases v <;> rfl

theorem bindRule_unnumbered (fair : w.table.Impartial w.host) (ht : t.functions = w.table.functions)
    (s : Shape) (site : Site) (rule : Rule) :
    { w with table := t }.bindRule s.unnumbered site rule = w.bindRule s site rule := by
  rw [bindRule_eq, bindRule_eq, lookUp_withTable ht, Shape.kind_unnumbered]
  rcases hf : w.lookUp rule.name site with e | f
  · rfl
  have checked (c : ParameterCheck) (hc : f.checkParam = some c) (param : Value) :
      c.run w.host param s.unnumbered = c.run w.host param s :=
    ParameterCheck.run_unnumbered fun g hg => fair f (mem_of_lookUp hf) g (hc.trans (congrArg some hg)) param s
  have bounds : { w with table := t }.bound f s.unnumbered site rule = w.bound f s site rule := by
    unfold bound
    refine congrArg (w.resolve f rule.param >>= ·) (funext fun param => ?_)
    rcases hc : f.checkParam with _ | c
    · rfl
    · dsimp only
      rw [checked c hc]
  change (if _ then _ else _) = (if _ then _ else _)
  rw [bounds]

theorem bindRules_unnumbered (fair : w.table.Impartial w.host) (ht : t.functions = w.table.functions)
    (s : Shape) (site : Site) (existing : List BoundRule) :
    { w with table := t }.bindRules s.unnumbered site existing = w.bindRules s site existing := by
  have bind : { w with table := t }.bindRule s.unnumbered site = w.bindRule s site :=
    funext (bindRule_unnumbered fair ht s site)
  unfold bindRules
  rw [Shape.rules_unnumbered, bind]

mutual

/-- A shape compiles to the same node, whatever the numbers of its schemas. -/
theorem compile_unnumbered (fair : w.table.Impartial w.host) (ht : t.functions = w.table.functions)
    (site : Site) : ∀ s : Shape,
    { w with table := t }.compile site s.unnumbered = (w.compile site s).map Node.unnumbered
  | .mk kind declared type inner keys target cases tag => by
    have rules := bindRules_unnumbered fair ht (.mk kind declared type inner keys target cases tag) site []
    have inside := compileInner_unnumbered fair ht site inner
    have outside := compileKeys_unnumbered fair ht site keys
    rw [Shape.unnumbered] at rules ⊢
    rw [compile, compile, rules]
    rcases w.bindRules (.mk kind declared type inner keys target cases tag) site [] with e | rules
    · rfl
    cases kind with
    | scalar =>
      simp only [bind, Except.bind]
      rcases checkScalarType type site with e | u <;> simp [Except.map, pure, Except.pure, Node.unnumbered]
    | optional | sequence | mapping =>
      simp only [bind, Except.bind, inside, outside]
      rcases w.compileInner site inner with e | n
      · rfl
      · rcases w.compileKeys site keys with e | k <;> simp [Except.map, pure, Except.pure, Node.unnumbered, Node.unnumberedInner_eq]
    | nested =>
      simp only [bind, Except.bind, checkTarget_unnumbered target site]
      rcases w.checkTarget target site with e | u <;> simp [Except.map, pure, Except.pure, Node.unnumbered]
    | enum =>
      rcases cases with _ | _ | ⟨entry, rest⟩
      · rw [Shape.unnumberedChoice]
        rfl
      · rw [Shape.unnumberedChoice, Shape.unnumberedCases]
        rfl
      · have choice := compileCases_unnumbered fair ht site (entry :: rest) []
        obtain ⟨name, payload⟩ := entry
        rw [Shape.unnumberedChoice, Shape.unnumberedCases]
        rw [Shape.unnumberedCases, Node.unnumberedCases] at choice
        simp only [bind, Except.bind, choice]
        rcases w.compileCases site ((name, payload) :: rest) [] with e | all
        · rfl
        · simp [Except.map, pure, Except.pure, Node.unnumbered]

theorem compileInner_unnumbered (fair : w.table.Impartial w.host) (ht : t.functions = w.table.functions)
    (site : Site) : ∀ s : Option Shape,
    { w with table := t }.compileInner site (Shape.unnumberedInner s) = (w.compileInner site s).map Node.unnumbered
  | none => by
    rw [Shape.unnumberedInner, compileInner, compileInner]
    simp [Except.map, Node.unnumbered]
  | some s => by
    rw [Shape.unnumberedInner, compileInner, compileInner, compile_unnumbered fair ht site s]

theorem compileKeys_unnumbered (fair : w.table.Impartial w.host) (ht : t.functions = w.table.functions)
    (site : Site) : ∀ s : Option Shape,
    { w with table := t }.compileKeys site (Shape.unnumberedInner s)
      = (w.compileKeys site s).map (Option.map Node.unnumbered)
  | none => by
    rw [Shape.unnumberedInner, compileKeys, compileKeys]
    rfl
  | some s => by
    rw [Shape.unnumberedInner, compileKeys, compileKeys, compile_unnumbered fair ht site s]
    rcases w.compile site s with e | n <;> rfl

theorem compileCases_unnumbered (fair : w.table.Impartial w.host) (ht : t.functions = w.table.functions)
    (site : Site) : ∀ (cases : List (Value × Payload))
    (done : List (Value × Option Node)),
    { w with table := t }.compileCases site (Shape.unnumberedCases cases) (Node.unnumberedCases done)
      = (w.compileCases site cases done).map Node.unnumberedCases
  | [], done => by
    rw [Shape.unnumberedCases, compileCases, compileCases]
    rfl
  | (name, payload) :: rest, done => by
    have carried := compilePayload_unnumbered fair ht { site with variant := some name } payload
    rw [Shape.unnumberedCases, compileCases, compileCases, carried]
    rcases w.compilePayload { site with variant := some name } payload with e | n
    · rfl
    · have later := compileCases_unnumbered fair ht site rest (Value.assign (.text name.str) n done)
      rw [Node.unnumberedCases_eq (Value.assign ..), ← Value.assign_map _ n (Option.map Node.unnumbered),
        ← Node.unnumberedCases_eq] at later
      exact later

theorem compilePayload_unnumbered (fair : w.table.Impartial w.host) (ht : t.functions = w.table.functions)
    (site : Site) : ∀ payload : Payload,
    { w with table := t }.compilePayload site payload.unnumbered
      = (w.compilePayload site payload).map (Option.map Node.unnumbered)
  | .shape s => by
    rw [Payload.unnumbered, compilePayload, compilePayload, compile_unnumbered fair ht site s]
    rcases w.compile site s with e | n <;> rfl
  | .target (.schema s) => by
    rw [Payload.unnumbered, Target.unnumbered]
    simp [compilePayload, isScalarClass, checkTarget, Except.map, Node.unnumbered, Target.unnumbered, bind, Except.bind,
      pure, Except.pure]
  | .target (.value v) => by
    have checked := checkTarget_unnumbered (w := w) (t := t) (.value v) site
    have scalar : { w with table := t }.isScalarClass (.value v) = w.isScalarClass (.value v) := by
      cases v <;> rfl
    rw [Target.unnumbered] at checked
    rw [Payload.unnumbered, Target.unnumbered]
    by_cases hv : v = .absent
    · subst hv
      rfl
    · rw [compilePayload, compilePayload, scalar, checked]
      · split
        · rfl
        · rcases w.checkTarget (.value v) site with e | u
          · rfl
          · simp [bind, Except.bind, pure, Except.pure, Except.map, Node.unnumbered, Target.unnumbered]
      · simpa using hv
      · simpa using hv

end

end Workshop

/-! ### Building -/

/-- Steps that a map commutes with, taken in turn, commute with it. -/
theorem foldlM_map {α β γ : Type} {f : β → α → Except Fault β} {f' : γ → α → Except Fault γ} {g : β → γ} :
    ∀ {xs : List α} {b : β}, (∀ x ∈ xs, ∀ b, f' (g b) x = (f b x).map g) →
      xs.foldlM f' (g b) = (xs.foldlM f b).map g
  | [], b, _ => rfl
  | x :: xs, b, step => by
    rw [List.foldlM_cons, List.foldlM_cons, step x List.mem_cons_self b]
    rcases f b x with e | b'
    · rfl
    · exact foldlM_map fun y hy => step y (List.mem_cons_of_mem _ hy)

namespace SchemaBuilder

/-- A builder whose fields have nodes without numbers. -/
def unnumbered (b : SchemaBuilder) : SchemaBuilder := { b with fields := Schema.unnumberedFields b.fields }

variable {b : SchemaBuilder} {h : Host} {t t' : FunctionTable}

theorem placeRule_unnumbered (ht : t'.functions = t.functions) (site : Site) (s : Shape) (rule : Rule) :
    placeRule site (b.unnumbered.workshop h t') s.unnumbered rule
      = (placeRule site (b.workshop h t) s rule).map Shape.unnumbered := by
  have found := Workshop.lookUp_withTable (w := b.workshop h t) (t := t') ht rule.name site
  change (b.unnumbered.workshop h t').lookUp rule.name site = _ at found
  unfold placeRule
  rw [found]
  rcases (b.workshop h t).lookUp rule.name site with e | f
  · rfl
  · simp only [bind, Except.bind, Shape.place_unnumbered, Shape.describe_unnumbered, Shape.kind_unnumbered]
    rcases s.place f.appliesTo rule with _ | placed
    · rcases s.describe with e | d <;> rfl
    · rfl

variable (fair : t.Impartial h) (ht : t'.functions = t.functions)
include fair ht

theorem fieldNode_unnumbered (site : Site) (s : Shape) (rules : List Rule) :
    b.unnumbered.fieldNode h t' site s.unnumbered rules = (b.fieldNode h t site s rules).map Node.unnumbered := by
  have placed : rules.foldlM (placeRule site (b.unnumbered.workshop h t')) s.unnumbered
      = (rules.foldlM (placeRule site (b.workshop h t)) s).map Shape.unnumbered :=
    foldlM_map fun rule _ s => placeRule_unnumbered ht site s rule
  unfold fieldNode
  rw [placed]
  rcases rules.foldlM (placeRule site (b.workshop h t)) s with e | s
  · rfl
  · exact Workshop.compile_unnumbered (w := b.workshop h t) fair ht site s

/-- Declaring a field does the same, whatever the numbers of the schemas that are there. -/
theorem field_unnumbered (name : Value) (s : Shape) (rules : List RuleSpelling) (named : List (String × Value)) :
    b.unnumbered.field h t' name (.shape s.unnumbered) rules named
      = (b.field h t name (.shape s) rules named).map unnumbered := by
  have taken : (b.unnumbered.fields.any fun (n, _) => n.eq name) = b.fields.any fun (n, _) => n.eq name := by
    simp only [unnumbered, Schema.unnumberedFields_eq, List.any_map]
    rfl
  rw [field_eq, field_eq, taken]
  split
  · rfl
  · change (malformed _ (Rule.ofSpellings rules named) >>= _) = (malformed _ (Rule.ofSpellings rules named) >>= _).map _
    rcases Rule.ofSpellings rules named with e | rules
    · rfl
    · change (b.unnumbered.fieldNode h t' { schema := b.name, field := some name } s.unnumbered rules).map _
        = ((b.fieldNode h t { schema := b.name, field := some name } s rules).map _).map _
      rw [fieldNode_unnumbered fair ht]
      rcases b.fieldNode h t { schema := b.name, field := some name } s rules with e | n
      · rfl
      · simp [Except.map, unnumbered, Schema.unnumberedFields_eq]

/-- Declaring checks does the same, whatever the numbers of the schemas that are there. -/
theorem check_unnumbered (rules : List RuleSpelling) (named : List (String × Value)) :
    b.unnumbered.check h t' rules named = (b.check h t rules named).map unnumbered := by
  have bound (rules : List Rule) : (b.unnumbered.workshop h t').bindRules (.nested (.value b.unnumbered.targetType) rules)
      { schema := b.unnumbered.name } b.unnumbered.checks
        = (b.workshop h t).bindRules (.nested (.value b.targetType) rules) { schema := b.name } b.checks :=
    Workshop.bindRules_unnumbered (w := b.workshop h t) fair ht (.nested (.value b.targetType) rules) _ _
  unfold check
  rcases Rule.ofSpellings rules named with e | rules
  · rfl
  · change ((b.unnumbered.workshop h t').bindRules (.nested (.value b.unnumbered.targetType) rules)
      { schema := b.unnumbered.name } b.unnumbered.checks >>= _) = _
    rw [bound]
    change _ = ((b.workshop h t).bindRules (.nested (.value b.targetType) rules) { schema := b.name } b.checks >>= _).map _
    rcases (b.workshop h t).bindRules (.nested (.value b.targetType) rules) { schema := b.name } b.checks with
      e | checks <;> rfl

omit fair ht in
theorem build_unnumbered (serial serial' : Nat) :
    (b.unnumbered.build serial').unnumbered = (b.build serial).unnumbered := by
  simp only [build, unnumbered, Schema.unnumbered, Schema.unnumberedFields_twice]

end SchemaBuilder
end Conform
