import Conform.Proofs.Selection
import Conform.Schema.Walk

/-!
Rules do not disturb each other. A trace is a walk in which every violation is marked by whether the rule
that it comes from is kept; the violations of a level itself always are. The whole trace is what the
walk by all rules finds, and the marked part of it, in order, is what the walk by the kept rules finds.
-/

namespace Conform

/-- A violation, and whether the rule that it comes from is kept. -/
structure Marked where
  kept : Bool
  violation : Violation

namespace Marked

/-- The marked violation seen from further out. -/
def under (way : Path) (m : Marked) : Marked := { m with violation := m.violation.under way }

/-- All violations. -/
def everything (ms : List Marked) : List Violation := ms.map Marked.violation

/-- The violations that are left when those of rules that are not kept are deleted. -/
def remaining (ms : List Marked) : List Violation := (ms.filter Marked.kept).map Marked.violation

theorem remaining_sublist (ms : List Marked) : (remaining ms).Sublist (everything ms) :=
  List.filter_sublist.map _

/-- A reading of marked violations that goes by each of them on its own. -/
structure Reading (read : List Marked → List Violation) : Prop where
  nil : read [] = []
  append (ms ns : List Marked) : read (ms ++ ns) = read ms ++ read ns
  under (way : Path) (ms : List Marked) : read (ms.map (under way)) = (read ms).map (Violation.under way)

theorem reading_everything : Reading everything where
  nil := rfl
  append := by simp [everything]
  under := by simp [everything, under]

theorem reading_remaining : Reading remaining where
  nil := rfl
  append := by simp [remaining]
  under way ms := by
    have kept : Marked.kept ∘ Marked.under way = Marked.kept := rfl
    simp [remaining, List.filter_map, kept, under]

end Marked

/-- What rules find in a value, each violation marked by whether its rule is kept. -/
def BoundRule.marked (h : Host) (keep : Nat → Bool) (rules : List BoundRule) (v : Value) : List Marked :=
  rules.zipIdx.flatMap fun (rule, i) => (rule.violations h v).map (Marked.mk (keep i))

theorem BoundRule.everything_marked (h : Host) (keep : Nat → Bool) (rules : List BoundRule) (v : Value) :
    Marked.everything (marked h keep rules v) = violationsAll h rules v := by
  have all : ∀ position, Marked.everything ((rules.zipIdx position).flatMap fun (rule, i) =>
      (rule.violations h v).map (Marked.mk (keep i))) = violationsAll h rules v := by
    induction rules with
    | nil => intro; rfl
    | cons rule rest ih =>
      intro position
      rw [List.zipIdx_cons, List.flatMap_cons, Marked.reading_everything.append, ih]
      simp [Marked.everything, violationsAll, Function.comp_def]
  exact all 0

theorem BoundRule.remaining_marked (h : Host) (keep : Nat → Bool) (rules : List BoundRule) (v : Value) :
    Marked.remaining (marked h keep rules v) = violationsAll h (keptRules keep rules) v := by
  have kept : ∀ position, Marked.remaining ((rules.zipIdx position).flatMap fun (rule, i) =>
      (rule.violations h v).map (Marked.mk (keep i)))
      = violationsAll h (((rules.zipIdx position).filter fun (_, i) => keep i).map Prod.fst) v := by
    induction rules with
    | nil => intro; rfl
    | cons rule rest ih =>
      intro position
      rw [List.zipIdx_cons, List.flatMap_cons, Marked.reading_remaining.append, ih, List.filter_cons]
      by_cases hk : keep position = true
      · simp [Marked.remaining, hk, violationsAll, Function.comp_def, List.filter_map]
      · simp [Marked.remaining, hk, violationsAll, Function.comp_def, List.filter_map]
  exact kept 0

/-! ### Traces -/

/-- What a survey finds, marked, when something is found along its branches. -/
def Survey.mark (s : Survey) (h : Host) (c below : Choice) (v : Value) (found : Except Fault (List Marked)) :
    Except Fault (List Marked) :=
  andThen (.ok (BoundRule.marked h c.rule s.rules v ++ s.own.toList.map (Marked.mk true)))
    (andThen found (.ok (BoundRule.marked h below.check s.checks v)))

/-- The violations of a value by a node, marked. -/
def trace (h : Host) (K : Selection) (c : Choice) (node : Node) (v : Value) : Except Fault (List Marked) :=
  match _ : node.survey h v with
  | .error f => .error f
  | .ok s => s.mark h c (K.below c node) v (inTurn (s.branches.attach.map fun ⟨b, _⟩ =>
    match _ : b.value with
    | .error f => .error f
    | .ok x => (trace h K ((K.below c node).into b.turn) b.node x).map (List.map (Marked.under b.way))))
termination_by (v.depth, sizeOf node)
decreasing_by exact (Step.of_branch ‹_› ‹_› ‹_›).smaller

/-- The violations along a branch, marked. -/
def traceBranch (h : Host) (K : Selection) (below : Choice) (b : Branch) : Except Fault (List Marked) :=
  match b.value with
  | .error f => .error f
  | .ok x => (trace h K (below.into b.turn) b.node x).map (List.map (Marked.under b.way))

/-- The violations that come to light by a survey of a value, marked. -/
def Survey.trace (s : Survey) (h : Host) (K : Selection) (c below : Choice) (v : Value) :
    Except Fault (List Marked) :=
  s.mark h c below v (inTurn (s.branches.map (traceBranch h K below)))

/-- The violations of a value by a schema, marked. -/
def Schema.trace (s : Schema) (h : Host) (K : Selection) (c : Choice) (v : Value) : Except Fault (List Marked) :=
  (s.survey v).trace h K c c v

/-- A trace is a survey of the value and traces along its branches. -/
theorem trace_eq (h : Host) (K : Selection) (c : Choice) (node : Node) (v : Value) :
    trace h K c node v = match node.survey h v with
      | .error f => .error f
      | .ok s => s.trace h K c (K.below c node) v := by
  rw [trace]
  split
  · next hs => rw [hs]
  · next s hs =>
    rw [hs]
    refine congrArg (s.mark h c (K.below c node) v) (congrArg inTurn ?_)
    rw [← List.attach_map_val (l := s.branches) (f := traceBranch h K (K.below c node))]
    refine List.map_congr_left fun ⟨b, hb⟩ _ => ?_
    simp only [traceBranch]
    split <;> next hx => simp [hx]

/-! ### Reading traces -/

section Reading
variable {read : List Marked → List Violation} (reading : Marked.Reading read)
include reading

theorem andThen_read (first second : Except Fault (List Marked)) :
    (andThen first second).map read = andThen (first.map read) (second.map read) := by
  cases first <;> cases second <;> simp [andThen, Except.map, reading.append]

theorem inTurn_read (found : List (Except Fault (List Marked))) :
    (inTurn found).map read = inTurn (found.map (Except.map read)) := by
  induction found with
  | nil => simp [inTurn, Except.map, reading.nil]
  | cons first rest ih => rw [inTurn, andThen_read reading, ih, List.map_cons, inTurn]

theorem Survey.trace_read (s : Survey) (h : Host) (K : Selection) (c below : Choice) (v : Value) :
    (s.trace h K c below v).map read
      = andThen (.ok (read (BoundRule.marked h c.rule s.rules v) ++ read (s.own.toList.map (Marked.mk true))))
          (andThen (inTurn (s.branches.map fun b => (traceBranch h K below b).map read))
            (.ok (read (BoundRule.marked h below.check s.checks v)))) := by
  rw [Survey.trace, Survey.mark, andThen_read reading, andThen_read reading, inTurn_read reading, List.map_map]
  simp [Except.map, reading.append, Function.comp_def]

theorem traceBranch_read (h : Host) (K : Selection) (below : Choice) (b : Branch) :
    (traceBranch h K below b).map read = match b.value with
      | .error f => .error f
      | .ok x => inward b.way ((trace h K (below.into b.turn) b.node x).map read) := by
  unfold traceBranch
  cases b.value with
  | error f => rfl
  | ok x =>
    dsimp only
    cases trace h K (below.into b.turn) b.node x with
    | error f => rfl
    | ok ms => exact congrArg Except.ok (reading.under b.way ms)

end Reading

/-! ### All rules, and the rules that are kept -/

section Two
variable {h : Host} {K : Selection} {c below : Choice}

theorem Survey.walk_eq_trace {s : Survey} {v : Value}
    (ih : ∀ b ∈ s.branches, walkBranch h b = (traceBranch h K below b).map Marked.everything) :
    s.walk h v = (s.trace h K c below v).map Marked.everything := by
  have own : Marked.everything (s.own.toList.map (Marked.mk true)) = s.own.toList := by
    simp [Marked.everything, Function.comp_def]
  rw [Survey.trace_read Marked.reading_everything, BoundRule.everything_marked, BoundRule.everything_marked, own,
    Survey.walk, Survey.gather, walkBranches, List.map_congr_left ih]

theorem Survey.walk_keep {s : Survey} {v : Value}
    (ih : ∀ b ∈ s.branches, walkBranch (h.keep K) (b.keep below) = (traceBranch h K below b).map Marked.remaining) :
    (s.keep c below).walk (h.keep K) v = (s.trace h K c below v).map Marked.remaining := by
  have own : Marked.remaining (s.own.toList.map (Marked.mk true)) = s.own.toList := by
    cases s.own <;> rfl
  rw [Survey.trace_read Marked.reading_remaining, BoundRule.remaining_marked, BoundRule.remaining_marked, own,
    Survey.walk, Survey.gather, walkBranches, Survey.keep, List.map_map, ← List.map_congr_left ih]
  rfl

theorem walkBranch_eq_trace {b : Branch}
    (ih : ∀ x, b.value = .ok x → walk h b.node x = (trace h K (below.into b.turn) b.node x).map Marked.everything) :
    walkBranch h b = (traceBranch h K below b).map Marked.everything := by
  rw [traceBranch_read Marked.reading_everything]
  unfold walkBranch
  cases hb : b.value with
  | error f => rfl
  | ok x => exact congrArg (inward b.way) (ih x hb)

theorem walkBranch_keep {b : Branch}
    (ih : ∀ x, b.value = .ok x → walk (h.keep K) (b.node.keep (below.into b.turn)) x
      = (trace h K (below.into b.turn) b.node x).map Marked.remaining) :
    walkBranch (h.keep K) (b.keep below) = (traceBranch h K below b).map Marked.remaining := by
  rw [traceBranch_read Marked.reading_remaining]
  unfold walkBranch Branch.keep
  dsimp only
  cases hb : b.value with
  | error f => rfl
  | ok x => exact congrArg (inward b.way) (ih x hb)

/-- The whole trace is what the walk by all rules finds. -/
theorem walk_eq_trace (node : Node) (v : Value) (c : Choice) :
    walk h node v = (trace h K c node v).map Marked.everything := by
  refine walk_induction h (P := fun node v =>
    ∀ c, walk h node v = (trace h K c node v).map Marked.everything) (fun node v ih c => ?_) node v c
  rw [walk_eq, trace_eq]
  cases hs : node.survey h v with
  | error f => rfl
  | ok s =>
    exact Survey.walk_eq_trace fun b hb =>
      walkBranch_eq_trace fun x hx => ih _ _ _ (Step.of_branch hs hb hx) _

/-- The kept part of the trace is what the walk by the kept rules finds. -/
theorem walk_keep (node : Node) (v : Value) (c : Choice) :
    walk (h.keep K) (node.keep c) v = (trace h K c node v).map Marked.remaining := by
  refine walk_induction h (P := fun node v =>
    ∀ c, walk (h.keep K) (node.keep c) v = (trace h K c node v).map Marked.remaining) (fun node v ih c => ?_) node v c
  rw [walk_eq, trace_eq, Node.survey_keep]
  cases hs : node.survey h v with
  | error f => rfl
  | ok s =>
    exact Survey.walk_keep fun b hb =>
      walkBranch_keep fun x hx => ih _ _ _ (Step.of_branch hs hb hx) _

theorem Schema.walk_eq_trace (s : Schema) (v : Value) (c : Choice) :
    s.walk h v = (s.trace h K c v).map Marked.everything :=
  Survey.walk_eq_trace fun _ _ => walkBranch_eq_trace fun x _ => Conform.walk_eq_trace _ x _

theorem Schema.walk_keep (s : Schema) (v : Value) (c : Choice) :
    (s.keep c).walk (h.keep K) v = (s.trace h K c v).map Marked.remaining := by
  rw [Schema.walk, Schema.survey_keep c c]
  exact Survey.walk_keep fun _ _ => walkBranch_keep fun x _ => Conform.walk_keep _ x _

end Two

/-! ### Rules do not disturb each other -/

/-- Take a schema, leave out any of its rules at any of its levels and of the schemas that it refers to, and
look at it as what the rules that are left out were inserted into. Deleting what the inserted rules
contribute from the violations by all rules gives the violations without them, in the same order; so
those come in the same order among them, and a value that is valid with the inserted rules is valid
without. -/
theorem rules_independent (h : Host) (K : Selection) (c : Choice) (s : Schema) (v : Value) :
    s.validate h v = (s.trace h K c v).map (fun ms => Report.of v (Marked.everything ms)) ∧
    (s.keep c).validate (h.keep K) v = (s.trace h K c v).map (fun ms => Report.of v (Marked.remaining ms)) ∧
    ∀ all left, s.validate h v = .ok all → (s.keep c).validate (h.keep K) v = .ok left →
      left.violations.Sublist all.violations ∧ (all.valid = true → left.valid = true) := by
  have full : s.validate h v = (s.trace h K c v).map (fun ms => Report.of v (Marked.everything ms)) := by
    rw [Schema.validate_eq_walk, Schema.walk_eq_trace s v c (K := K)]
    cases s.trace h K c v <;> rfl
  have rest : (s.keep c).validate (h.keep K) v
      = (s.trace h K c v).map (fun ms => Report.of v (Marked.remaining ms)) := by
    rw [Schema.validate_eq_walk, Schema.walk_keep]
    cases s.trace h K c v <;> rfl
  refine ⟨full, rest, fun all left hall hleft => ?_⟩
  rw [full] at hall
  rw [rest] at hleft
  obtain ⟨ms, hms, rfl⟩ := Except.map_eq_ok.mp hall
  obtain ⟨ns, hns, rfl⟩ := Except.map_eq_ok.mp hleft
  obtain rfl : ms = ns := Except.ok.inj (hms.symm.trans hns)
  have sublist := Marked.remaining_sublist ms
  refine ⟨sublist, fun valid => ?_⟩
  rw [Report.valid_of_iff] at valid ⊢
  rw [valid] at sublist
  exact List.sublist_nil.mp sublist

/-- A check that cannot be run, inserted before a bound, adds its own violation before that of the bound. -/
theorem rules_independent_of_broken_check :
    let broken : BoundRule := ⟨{ name := "broken", check := .custom .absent }, .absent⟩
    let bound : BoundRule := ⟨{ name := "max", check := .builtin .max }, .int 3⟩
    let s : Schema := .mk 0 (.text "Count") [] [broken, bound] .absent .absent
    let c : Choice := fun _ place => place != .check 0
    ∃ all left, s.validate .bare (.int 5) = .ok all ∧
      (s.keep c).validate (Host.bare.keep ⟨fun _ => c, fun _ => c⟩) (.int 5) = .ok left ∧
      all.violations.map Violation.kind = ["broken", "max"] ∧ left.violations.map Violation.kind = ["max"] ∧
      left.violations.Sublist all.violations := by
  intro broken bound s c
  obtain ⟨full, rest, sub⟩ := rules_independent .bare ⟨fun _ => c, fun _ => c⟩ c s (.int 5)
  have hall := full.trans rfl
  have hleft := rest.trans rfl
  exact ⟨_, _, hall, hleft, rfl, rfl, (sub _ _ hall hleft).1⟩

end Conform
