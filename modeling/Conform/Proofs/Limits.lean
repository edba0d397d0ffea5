import Conform.Proofs.Leaves

/-!
Validation with a limit on nested calls, and no measure. `validateWithin` takes the steps of validation and gives up
where calls are nested deeper than the limit, so that an endless descent would be seen as giving up at every limit.
There is none: whatever the schemas refer to and whatever the tags select, every step leads to a shallower value, or to
a smaller node at the same value, and with a high enough limit the outcome is that of validation.
-/

namespace Conform

/-- The outcome of a computation with a limit: nothing when the limit is met. -/
abbrev Limited (α : Type) : Type := ExceptT Fault Option α

/-- An outcome within the limit. -/
def ended {α : Type} (outcome : Except Fault α) : Limited α := ExceptT.mk (some outcome)

def exhausted {α : Type} : Limited α := ExceptT.mk none

/-- Runs an action further in. -/
def Recorder.along (r : Recorder) (way : Path) (action : Recorder → Limited Recorder) : Limited Recorder := do
  let inner ← action { r with path := r.path ++ way }
  return { inner with path := r.path }

def Branch.run (again : Node → Value → Recorder → Limited Recorder) (b : Branch) (r : Recorder) : Limited Recorder :=
  match b.value with
  | .error f => ended (.error f)
  | .ok x => r.along b.way (again b.node x)

/-- Does what a survey says, and calls the walk again along its branches. -/
def Survey.run (again : Node → Value → Recorder → Limited Recorder) (h : Host) (v : Value) (s : Survey) (r : Recorder) :
    Limited Recorder := do
  let r ← s.branches.foldlM (fun r b => b.run again r) ((BoundRule.applyAll h s.rules v r).adopt s.own.toList)
  return BoundRule.applyAll h s.checks v r

/-- Walks a value with a node within a limit. -/
def visitWithin (h : Host) : Nat → Node → Value → Recorder → Limited Recorder
  | 0, _, _, _ => exhausted
  | limit + 1, node, v, r => match node.survey h v with
    | .error f => ended (.error f)
    | .ok s => s.run (visitWithin h limit) h v r

/-- Walks a value by the schemas of the classes in it, within a limit. -/
def collectOwnWithin (h : Host) : Nat → Value → Recorder → Limited Recorder
  | 0, _, _ => exhausted
  | limit + 1, v, r => match v with
    | .absent => return r
    | .mapping _ entries => entries.foldlM (fun r (k, x) => r.along [.key k] (collectOwnWithin h limit x)) r
    | .sequence .list items | .sequence .tuple items | .set _ items =>
      items.zipIdx.foldlM (fun r (x, i) => r.along [.index i] (collectOwnWithin h limit x)) r
    -- An instance is walked by its own schema, whose fields are one call further in.
    | v => match h.schemaOf? v with
      | some s => (s.survey v).run (visitWithin h limit) h v r
      | none => ended (.error (.refused (.schemaNotFound v.className)))

def Schema.validateWithin (s : Schema) (h : Host) (limit : Nat) (v : Value) : Limited Report := do
  return (← (s.survey v).run (visitWithin h limit) h v .empty).build v

def Node.validateWithin (node : Node) (h : Host) (limit : Nat) (v : Value) : Limited Report := do
  return (← visitWithin h limit node v .empty).build v

/-- Validates a value against a target within a limit. -/
def validateWithin (h : Host) (limit : Nat) (v : Value) : ValidationTarget → Limited Report
  | .own => do return (← collectOwnWithin h limit v .empty).build v
  | .schema s => s.validateWithin h limit v
  | .node n => n.validateWithin h limit v
  | .shape s => do
    let node ← ended (({ name := .text "value" } : SchemaBuilder).compileShape h .default (.shape s))
    node.validateWithin h limit v
  | .value target =>
    match (if target.isClass then h.schemaOf? target else none) with
    | some s => s.validateWithin h limit v
    | none => ended (.error (.refused (.schemaNotFound target.targetName)))

/-! ### Outcomes within a limit -/

@[simp] theorem ended_bind {α β : Type} (outcome : Except Fault α) (f : α → Limited β) :
    (ended outcome >>= f) = match outcome with
      | .ok a => f a
      | .error x => ended (.error x) := by
  cases outcome <;> rfl

/-- With a high enough limit a walk ends, and has adopted these findings. -/
def EndsWith (run : Nat → Recorder → Limited Recorder) (found : Except Fault (List Violation)) : Prop :=
  ∃ limit, ∀ n ≥ limit, ∀ r, run n r = ended (found.map r.adopt)

namespace EndsWith
variable {run first later : Nat → Recorder → Limited Recorder} {found here there : Except Fault (List Violation)}

theorem pure : EndsWith (fun _ r => Pure.pure r) (.ok []) :=
  ⟨0, fun n _ r => by simp [Except.map]; rfl⟩

theorem error (f : Fault) : EndsWith (fun _ _ => ended (.error f)) (.error f) := ⟨0, fun _ _ _ => rfl⟩

/-- A call uses up one of the limit. -/
theorem call {below : Nat → Recorder → Limited Recorder} (step : ∀ n r, run (n + 1) r = below n r)
    (ends : EndsWith below found) : EndsWith run found := by
  obtain ⟨limit, hlimit⟩ := ends
  refine ⟨limit + 1, fun n hn r => ?_⟩
  obtain ⟨n, rfl⟩ := Nat.exists_eq_add_of_le' hn
  rw [← Nat.add_assoc, step]
  exact hlimit (n + limit) (by omega) r

theorem along (way : Path) (ends : EndsWith run found) : EndsWith (fun n r => r.along way (run n)) (inward way found) := by
  obtain ⟨limit, hlimit⟩ := ends
  refine ⟨limit, fun n hn r => ?_⟩
  dsimp only
  rw [Recorder.along, hlimit n hn]
  cases found with
  | error f => rfl
  | ok vs => simp [inward, Except.map, Recorder.adopt, Violation.under_under, Function.comp_def]; rfl

theorem andThen (ends : EndsWith first here) (next : EndsWith later there) :
    EndsWith (fun n r => first n r >>= later n) (Conform.andThen here there) := by
  obtain ⟨limit, hlimit⟩ := ends
  obtain ⟨limit', hlimit'⟩ := next
  refine ⟨max limit limit', fun n hn r => ?_⟩
  have hn : limit ≤ n ∧ limit' ≤ n := by omega
  dsimp only
  rw [hlimit n hn.1, ended_bind, Recorder.adopt_andThen]
  cases here with
  | error f => rfl
  | ok vs => exact hlimit' n hn.2 (r.adopt vs)

theorem foldlM {α : Type} {step : Nat → Recorder → α → Limited Recorder} {find : α → Except Fault (List Violation)}
    {xs : List α} (each : ∀ x ∈ xs, EndsWith (fun n r => step n r x) (find x)) :
    EndsWith (fun n r => xs.foldlM (step n) r) (inTurn (xs.map find)) := by
  induction xs with
  | nil => exact pure
  | cons x rest ih =>
    simp only [List.foldlM_cons, List.map_cons, inTurn]
    exact (each x List.mem_cons_self).andThen (ih fun y hy => each y (List.mem_cons_of_mem _ hy))

theorem report (ends : EndsWith run found) (v : Value) : ∃ limit, ∀ n ≥ limit,
    (do return (← run n .empty).build v : Limited Report) = ended (found.map (Report.of v)) := by
  obtain ⟨limit, hlimit⟩ := ends
  refine ⟨limit, fun n hn => ?_⟩
  rw [hlimit n hn, ← Recorder.build_adopt_empty]
  cases found <;> rfl

end EndsWith

/-! ### The walk ends -/

section Walk
variable {h : Host}

/-- A step leads to a shallower value, or to a smaller node at the same value. -/
theorem Step.descends {node m : Node} {v x : Value} {p : Path} (step : Step h node v p m x) :
    x.depth < v.depth ∨ x = v ∧ sizeOf m < sizeOf node := by
  cases step with
  | optional hv =>
    right
    simp
    omega
  | element hv hi => exact .inl (Value.depth_lt_of_mem_elements hv (List.mem_of_getElem? hi))
  | key hm | entry hm =>
    have below := Value.depth_le_depthEntries hm
    left
    simp only [Value.depth]
    omega
  | field hv hs hold hf hx => exact .inl (Value.depth_field_lt (Value.depth_pos_of_present hv) hx)
  | @payload rules cases tag _ name _ hv hs =>
    have smaller := size_selectCase hs
    have smaller : sizeOf m < sizeOf (Node.variants rules cases tag) := by
      simp only [Node.variants.sizeOf_spec]
      omega
    -- The payload of a member of an enumeration is inside the member; any other value is its own payload.
    unfold variantPayload
    split
    · exact .inr ⟨rfl, smaller⟩
    · split
      · left
        simp only [Value.depth]
        omega
      · exact .inr ⟨rfl, smaller⟩

theorem Step.wellFounded (h : Host) :
    WellFounded fun next here : Node × Value => ∃ p, Step h here.1 here.2 p next.1 next.2 := by
  have size := (Prod.lex Nat.lt_wfRel Nat.lt_wfRel).wf
  refine Subrelation.wf ?_ (InvImage.wf (fun x : Node × Value => (x.2.depth, sizeOf x.1)) size)
  rintro _ _ ⟨p, step⟩
  exact step.smaller

theorem Survey.run_ends {v : Value} {s : Survey}
    (branches : ∀ b ∈ s.branches, ∀ x, b.value = .ok x → EndsWith (fun n => visitWithin h n b.node x) (Conform.walk h b.node x)) :
    EndsWith (fun n => s.run (visitWithin h n) h v) (s.walk h v) := by
  have each : ∀ b ∈ s.branches, EndsWith (fun n r => b.run (visitWithin h n) r) (walkBranch h b) := by
    intro b hb
    unfold Branch.run walkBranch
    cases hx : b.value with
    | error f => exact .error f
    | ok x => exact (branches b hb x hx).along b.way
  obtain ⟨limit, hlimit⟩ := EndsWith.foldlM each
  refine ⟨limit, fun n hn r => ?_⟩
  dsimp only at hlimit ⊢
  rw [run, hlimit n hn, ended_bind, Survey.adopt_walk, walkBranches]
  cases inTurn (s.branches.map (walkBranch h)) <;> rfl

theorem visitWithin_ends (node : Node) (v : Value) : EndsWith (fun n => visitWithin h n node v) (walk h node v) := by
  refine walk_induction h (P := fun node v => EndsWith (fun n => visitWithin h n node v) (walk h node v))
    (fun node v ih => ?_) node v
  rw [walk_eq]
  cases hs : node.survey h v with
  | error f =>
    refine .call (fun n r => ?_) (.error f)
    rw [visitWithin, hs]
  | ok s =>
    refine .call (fun n r => ?_) (Survey.run_ends fun b hb x hx => ih b.way b.node x (Step.of_branch hs hb hx))
    rw [visitWithin, hs]

theorem Schema.run_ends (s : Schema) (v : Value) :
    EndsWith (fun n => (s.survey v).run (visitWithin h n) h v) (s.walk h v) :=
  Survey.run_ends fun b _ x _ => visitWithin_ends b.node x

/-! ### Validation ends -/

/-- What is found at the leaves of a value is found within a limit. -/
def LeavesEnd (h : Host) (run : Nat → Recorder → Limited Recorder) (leaves : List Leaf) : Prop :=
  EndsWith run (inTurn (leaves.map (Leaf.findings h)))

theorem LeavesEnd.step {first later : Nat → Recorder → Limited Recorder} {here there : List Leaf} (s : Segment)
    (ends : LeavesEnd h first here) (next : LeavesEnd h later there) :
    LeavesEnd h (fun n r => r.along [s] (first n) >>= later n) (here.map (Leaf.under [s]) ++ there) := by
  rw [LeavesEnd, List.map_append, inTurn_append, findings_map_under]
  exact (ends.along [s]).andThen next

theorem leavesEnd_leaf {v : Value} (leaf : v.leaves = [⟨[], v⟩]) (hv : ¬v.isAbsent = true)
    (within : ∀ limit r, collectOwnWithin h (limit + 1) v r = match h.schemaOf? v with
      | some s => (s.survey v).run (visitWithin h limit) h v r
      | none => ended (.error (.refused (.schemaNotFound v.className)))) :
    LeavesEnd h (fun n => collectOwnWithin h n v) v.leaves := by
  rw [LeavesEnd, findings_of_leaf leaf hv]
  refine .call within ?_
  cases h.schemaOf? v with
  | none => exact .error _
  | some s => exact s.run_ends v

mutual

theorem collectOwnWithin_ends : ∀ v : Value, LeavesEnd h (fun n => collectOwnWithin h n v) v.leaves
  | .absent => by
    refine .call (fun n r => ?_) .pure
    rw [collectOwnWithin]
  | .mapping _ entries => by
    rw [Value.leaves]
    refine .call (fun n r => ?_) (entriesWithin_ends entries)
    rw [collectOwnWithin]
  | .sequence .list items | .sequence .tuple items | .set _ items => by
    rw [Value.leaves]
    refine .call (fun n r => ?_) (itemsWithin_ends items 0)
    rw [collectOwnWithin]
  | .sequence .deque _ | .bool _ | .int _ | .float _ | .complex _ | .decimal _ | .fraction .. | .date _ | .moment _
  | .text _ | .bytes .. | .range .. | .pattern .. | .bag .. | .member .. | .function _ | .cls .. | .object ..
  | .record .. => leavesEnd_leaf rfl nofun fun _ _ => rfl

theorem itemsWithin_ends : ∀ (items : List Value) (position : Nat),
    LeavesEnd h (fun n r => (items.zipIdx position).foldlM (fun r (x, i) => r.along [.index i] (collectOwnWithin h n x)) r)
      (Value.leavesOfItems items position)
  | [], position => by
    rw [Value.leavesOfItems]
    exact .pure
  | x :: rest, position => by
    rw [Value.leavesOfItems]
    exact (collectOwnWithin_ends x).step (.index position) (itemsWithin_ends rest (position + 1))

theorem entriesWithin_ends : ∀ entries : List (Value × Value),
    LeavesEnd h (fun n r => entries.foldlM (fun r (k, x) => r.along [.key k] (collectOwnWithin h n x)) r)
      (Value.leavesOfEntries entries)
  | [] => by
    rw [Value.leavesOfEntries]
    exact .pure
  | (k, x) :: rest => by
    rw [Value.leavesOfEntries]
    exact (collectOwnWithin_ends x).step (.key k) (entriesWithin_ends rest)

end

theorem Schema.validateWithin_ends (s : Schema) (v : Value) :
    ∃ limit, ∀ n ≥ limit, s.validateWithin h n v = ended (s.validate h v) := by
  rw [s.validate_eq_walk]
  exact (s.run_ends v).report v

theorem Node.validateWithin_ends (node : Node) (v : Value) :
    ∃ limit, ∀ n ≥ limit, node.validateWithin h n v = ended (node.validate h v) := by
  rw [node.validate_eq_walk]
  exact (visitWithin_ends node v).report v

end Walk

/-- Validation ends, whatever the schemas of a host refer to. A step from a value and the node that describes it leads
to a shallower value, or to a smaller node at the same value, so that steps cannot go on without end; and with a high
enough limit on nested calls, validation against any target has the outcome that it has without a limit. -/
theorem validation_ends (h : Host) :
    (∀ node v p m x, Step h node v p m x → x.depth < v.depth ∨ x = v ∧ sizeOf m < sizeOf node) ∧
      (WellFounded fun next here : Node × Value => ∃ p, Step h here.1 here.2 p next.1 next.2) ∧
      ∀ v target, ∃ limit, ∀ n ≥ limit, validateWithin h n v target = ended (validate h v target) := by
  refine ⟨fun node v p m x => Step.descends, Step.wellFounded h, fun v target => ?_⟩
  cases target with
  | own =>
    rw [validate, collectOwn_leaves, Recorder.build_adopt_empty]
    exact (collectOwnWithin_ends v).report v
  | schema s => exact s.validateWithin_ends v
  | node node => exact node.validateWithin_ends v
  | shape s =>
    simp only [validateWithin, validate]
    cases ({ name := .text "value" } : SchemaBuilder).compileShape h .default (.shape s) with
    | error f => exact ⟨0, fun n _ => rfl⟩
    | ok node => exact node.validateWithin_ends v
  | value target =>
    simp only [validateWithin, validate]
    cases (if target.isClass then h.schemaOf? target else none) with
    | none => exact ⟨0, fun n _ => rfl⟩
    | some s => exact s.validateWithin_ends v

/-! ### A class that refers to itself -/

abbrev linkClass : DeclaredClass := ⟨0, "Link", "Link", [], none⟩

abbrev linkNode : Node := .nested [] (.value (.cls (.declared linkClass) []))

abbrev nextNode : Node := .wrapper .optional [] (some linkNode) none

abbrev linkSchema : Schema :=
  .mk 1 (.text "Link") [(.text "next", nextNode)] [] (.cls (.declared linkClass) []) .absent

abbrev linkHost : Host := { Host.bare with classSchema := fun d => if d.serial = 0 then some linkSchema else none }

abbrev link (n : Nat) (next : Value) : Value := .object linkClass n [("next", next)] []

theorem validation_ends_of_links :
    let last := link 2 .absent
    let first := link 1 last
    Step linkHost linkNode first [.field (.text "next")] nextNode last ∧ Step linkHost nextNode last [] linkNode last ∧
      last.depth < first.depth ∧ sizeOf linkNode < sizeOf nextNode ∧
      ∃ limit, ∀ n ≥ limit, validateWithin linkHost n first .own = ended (validate linkHost first .own) := by
  intro last first
  obtain ⟨descends, -, ends⟩ := validation_ends linkHost
  have present (n : Nat) (next : Value) : ¬(link n next).isAbsent = true := Bool.false_ne_true
  have carries : linkHost.targetSchema? (.value (.cls (.declared linkClass) [])) = some linkSchema := rfl
  have field : Step linkHost linkNode first [.field (.text "next")] nextNode last :=
    .field (present 1 last) carries rfl List.mem_cons_self rfl
  have inner : Step linkHost nextNode last [] linkNode last := .optional (present 2 .absent)
  have apart : last ≠ first := by simp [last, first]
  exact ⟨field, inner, (descends _ _ _ _ _ field).resolve_right fun same => apart same.1,
    ((descends _ _ _ _ _ inner).resolve_left (Nat.lt_irrefl _)).2, ends first .own⟩

end Conform
