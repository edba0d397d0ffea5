import Conform.Proofs.Landing

/-!
What stays the same when rules stand in another order. Rules that are placed in another order land on the same levels, where
they stand in another order (`Shape.Rearranged`), and a node whose rules stand in another order finds the same violations
of every value in another order (`Node.Rearranged`).
-/

namespace Conform

/-- Two outcomes of one kind: the same fault, or results that are related. -/
inductive Matches {α : Type} (R : α → α → Prop) : Except Fault α → Except Fault α → Prop where
  | ok {a a' : α} (related : R a a') : Matches R (.ok a) (.ok a')
  | error (f : Fault) : Matches R (.error f) (.error f)

/-- Two reports of a value with the same violations, in whatever order. -/
structure Report.Rearranged (r r' : Report) : Prop where
  valid : r.valid = r'.valid
  value : r.value = r'.value
  violations : r.violations.Perm r'.violations

/-- Two nodes that find the same violations in every value, in whatever order. -/
def Node.Rearranged (n n' : Node) : Prop := ∀ h v, Matches List.Perm (walk h n v) (walk h n' v)

/-! ### Walking -/

namespace Matches
variable {found found' next next' : Except Fault (List Violation)}

theorem refl {α : Type} {R : α → α → Prop} (self : ∀ a, R a a) : ∀ e : Except Fault α, Matches R e e
  | .ok a => .ok (self a)
  | .error f => .error f

theorem andThen (first : Matches List.Perm found found') (second : Matches List.Perm next next') :
    Matches List.Perm (Conform.andThen found next) (Conform.andThen found' next') := by
  cases first with
  | error f => exact .error f
  | ok perm => cases second with
    | error f => exact .error f
    | ok more => exact .ok (perm.append more)

theorem inward (way : Path) (same : Matches List.Perm found found') :
    Matches List.Perm (Conform.inward way found) (Conform.inward way found') := by
  cases same with
  | error f => exact .error f
  | ok perm => exact .ok (perm.map _)

theorem report (v : Value) (same : Matches List.Perm found found') :
    Matches Report.Rearranged (found.map (Report.of v)) (found'.map (Report.of v)) := by
  cases same with
  | error f => exact .error f
  | ok perm => exact .ok ⟨perm.isEmpty_eq, rfl, perm⟩

end Matches

/-- Two branches that differ in their nodes only, which find the same. -/
inductive Branch.Rearranged : Branch → Branch → Prop where
  | mk {way turn n n' value} (node : n.Rearranged n') : Branch.Rearranged ⟨way, turn, n, value⟩ ⟨way, turn, n', value⟩

/-- Two surveys that do the same, but for the order of the rules. -/
structure Survey.Rearranged (s s' : Survey) : Prop where
  rules : s.rules.Perm s'.rules
  own : s.own = s'.own
  branches : List.Forall₂ Branch.Rearranged s.branches s'.branches
  checks : s.checks = s'.checks

@[refl] theorem Node.Rearranged.refl (n : Node) : n.Rearranged n := fun _ _ => .refl (fun _ => .refl _) _

theorem Survey.rearranged (s : Survey) {rules rules' : List BoundRule} (perm : rules.Perm rules') :
    Survey.Rearranged { s with rules } { s with rules := rules' } :=
  ⟨perm, rfl, List.forall₂_same.mpr fun b _ => .mk (.refl b.node), rfl⟩

theorem walkBranches_rearranged (h : Host) {bs bs' : List Branch} (each : List.Forall₂ Branch.Rearranged bs bs') :
    Matches List.Perm (walkBranches h bs) (walkBranches h bs') := by
  induction each with
  | nil => exact .ok .nil
  | @cons b b' bs bs' pair _ ih =>
    rw [walkBranches_cons, walkBranches_cons]
    refine .andThen ?_ ih
    cases pair with
    | @mk way turn n n' value node =>
      unfold walkBranch
      rcases value with f | x
      · exact .error f
      · exact (node h x).inward way

theorem Survey.Rearranged.walk {s s' : Survey} (same : s.Rearranged s') (h : Host) (v : Value) :
    Matches List.Perm (s.walk h v) (s'.walk h v) := by
  have found : (BoundRule.violationsAll h s.rules v).Perm (BoundRule.violationsAll h s'.rules v) := same.rules.flatMap_right _
  unfold Survey.walk Survey.gather
  rw [← same.own, ← same.checks]
  exact (Matches.ok (found.append_right _)).andThen ((walkBranches_rearranged h same.branches).andThen (.ok (.refl _)))

namespace Node
variable {n n' : Node} {rules rules' : List BoundRule}

/-- Nodes find the same when they survey every value alike. -/
theorem rearranged_of_surveys (absent : n.surveyAbsent = n'.surveyAbsent)
    (present : ∀ h v, Matches Survey.Rearranged (n.surveyPresent h v) (n'.surveyPresent h v)) : n.Rearranged n' := by
  intro h v
  have same : Matches Survey.Rearranged (n.survey h v) (n'.survey h v) := by
    by_cases hv : v.isAbsent = true
    · rw [survey_absent hv, survey_absent hv, absent]
      exact .ok (Survey.rearranged n'.surveyAbsent (.refl _))
    · rw [survey_present hv, survey_present hv]
      exact present h v
  rw [walk_eq, walk_eq]
  generalize n.survey h v = e at same
  generalize n'.survey h v = e' at same
  cases same with
  | error f => exact .error f
  | ok survey => exact survey.walk h v

theorem rearranged_scalar (perm : rules.Perm rules') (type : Value) : (scalar rules type).Rearranged (scalar rules' type) := by
  refine rearranged_of_surveys rfl fun h v => ?_
  rcases hfits : v.fits type with f | fits
  · simp only [surveyPresent, hfits]
    exact .error f
  · simp only [surveyPresent, hfits]
    cases fits with
    | true => exact .ok (Survey.rearranged {} perm)
    | false => exact .ok (Survey.rearranged { own := _ } (.refl _))

theorem rearranged_nested (perm : rules.Perm rules') (target : Target) :
    (nested rules target).Rearranged (nested rules' target) := by
  refine rearranged_of_surveys rfl fun h v => ?_
  change Matches _ (Survey.structured h rules target v) (Survey.structured h rules' target v)
  unfold Survey.structured
  rcases h.requireSchema target with f | s
  · exact .error f
  dsimp only
  rcases v.canHold s with f | holds
  · exact .error f
  cases holds with
  | true => exact .ok (Survey.rearranged (s.survey v) perm)
  | false => exact .ok (Survey.rearranged { own := _ } perm)

theorem rearranged_variants (perm : rules.Perm rules') (cases : List (Value × Option Node)) (tag : Value) :
    (variants rules cases tag).Rearranged (variants rules' cases tag) := by
  refine rearranged_of_surveys rfl fun h v => ?_
  change Matches _ (Survey.choice h rules cases tag v) (Survey.choice h rules' cases tag v)
  unfold Survey.choice
  rcases selectCase h tag v cases with f | ⟨name, _ | node⟩
  · dsimp only
    rcases Violation.undetermined cases f with g | x
    · exact .error g
    · exact .ok (Survey.rearranged { own := _ } perm)
  · dsimp only
    rcases Violation.unknownVariant cases name with g | x
    · exact .error g
    · exact .ok (Survey.rearranged { own := _ } perm)
  · exact .ok (Survey.rearranged { branches := _ } perm)

theorem rearranged_wrapper (perm : rules.Perm rules') (inside : n.Rearranged n') (w : Wrapper) (keys : Option Node) :
    (wrapper w rules (some n) keys).Rearranged (wrapper w rules' (some n') keys) := by
  have toward (way : Path) (turn : Turn) (x : Value) :
      List.Forall₂ Branch.Rearranged (Branch.toward way turn (some n) x) (Branch.toward way turn (some n') x) :=
    .cons (.mk inside) .nil
  refine rearranged_of_surveys (by cases w <;> rfl) fun h v => ?_
  cases w with
  | optional => exact .ok ⟨perm, rfl, toward _ _ v, rfl⟩
  | sequence =>
    simp only [surveyPresent, Survey.sequence]
    rcases v.elements? with _ | items
    · exact .ok (Survey.rearranged { own := _ } (.refl _))
    · exact .ok ⟨perm, rfl, List.rel_flatMap (List.forall₂_same.mpr fun _ _ => rfl) fun _ _ same => same ▸ toward _ _ _, rfl⟩
  | mapping =>
    simp only [surveyPresent, Survey.mapping]
    rcases v.entries? with _ | entries
    · exact .ok (Survey.rearranged { own := _ } (.refl _))
    · refine .ok ⟨perm, rfl, List.rel_flatMap (List.forall₂_same.mpr fun _ _ => rfl) ?_, rfl⟩
      rintro e _ rfl
      exact List.rel_append (List.forall₂_same.mpr fun b _ => .mk (.refl b.node)) (toward _ _ _)

end Node

/-! ### Placing -/

/-- Two shapes that differ in the order of the rules on their levels only, as far as these can take in more. -/
inductive Shape.Rearranged : Shape → Shape → Prop where
  | level {kind rules rules' type inner keys target cases tag} (perm : rules.Perm rules') :
      Shape.Rearranged (.mk kind rules type inner keys target cases tag) (.mk kind rules' type inner keys target cases tag)
  | inside {kind rules rules' type s s' keys target cases tag} (perm : rules.Perm rules') (inner : s.Rearranged s') :
      Shape.Rearranged (.mk kind rules type (some s) keys target cases tag)
        (.mk kind rules' type (some s') keys target cases tag)

namespace Shape
variable {kinds kinds' : List FieldKind} {rule rule' : Rule}

@[refl] theorem Rearranged.refl (s : Shape) : s.Rearranged s := by
  cases s
  exact .level (.refl _)

theorem Rearranged.trans {a b : Shape} (first : a.Rearranged b) : ∀ {c : Shape}, b.Rearranged c → a.Rearranged c := by
  induction first with
  | level perm =>
    intro c next
    cases next with
    | level perm' => exact .level (perm.trans perm')
    | inside perm' inner => exact .inside (perm.trans perm') inner
  | inside perm inner ih =>
    intro c next
    cases next with
    | level perm' => exact .inside (perm.trans perm') inner
    | inside perm' inner' => exact .inside (perm.trans perm') (ih inner')

theorem Rearranged.declaredType {s s' : Shape} (same : s.Rearranged s') : s'.declaredType = s.declaredType := by
  induction same with
  | level =>
    rw [Shape.declaredType.eq_def (.mk ..), Shape.declaredType.eq_def (.mk ..)]
  | inside _ _ ih =>
    rw [Shape.declaredType.eq_def (.mk ..), Shape.declaredType.eq_def (.mk ..)]
    dsimp only
    rw [ih]

@[simp] theorem declaredType_nested (target : Target) (rules : List Rule) : (nested target rules).declaredType = .absent := by
  rw [nested, Shape.declaredType.eq_def]

theorem Rearranged.places {s s' : Shape} (same : s.Rearranged s') : ∀ {p : Shape}, Places kinds rule s p →
    ∃ p', Places kinds rule s' p' ∧ p.Rearranged p' := by
  induction same with
  | level perm =>
    rintro p (⟨takes⟩ | ⟨passes, wrapper, inside⟩ | ⟨passes, wrapper, takes⟩)
    · exact ⟨_, .here takes, .level (perm.append_right _)⟩
    · exact ⟨_, .inside passes wrapper inside, .level perm⟩
    · exact ⟨_, .fresh passes wrapper takes, .level perm⟩
  | inside perm inner ih =>
    rintro p (⟨takes⟩ | ⟨passes, wrapper, inside⟩)
    · exact ⟨_, .here takes, .inside (perm.append_right _) inner⟩
    · obtain ⟨i', hi', same⟩ := ih inside
      exact ⟨_, .inside passes wrapper hi', .inside perm same⟩

/-- Two rules can be placed in either order. -/
theorem Places.swap {s p : Shape} (first : Places kinds rule s p) : ∀ {q : Shape}, Places kinds' rule' p q →
    ∃ p' q', Places kinds' rule' s p' ∧ Places kinds rule p' q' ∧ q.Rearranged q' := by
  -- Rules that stay at different levels do not see each other; at one level they change places.
  induction first with
  | @here kind rules type inner keys target cases tag takes =>
    rintro q (⟨takes'⟩ | ⟨passes', wrapper, inside'⟩ | ⟨passes', wrapper, takes'⟩)
    · refine ⟨_, _, .here takes', .here takes, .level ?_⟩
      simp only [List.append_assoc]
      exact (List.Perm.swap _ _ _).append_left rules
    · exact ⟨_, _, .inside passes' wrapper inside', .here takes, .refl _⟩
    · exact ⟨_, _, .fresh passes' wrapper takes', .here takes, .refl _⟩
  | inside passes wrapper inner ih =>
    rintro q (⟨takes'⟩ | ⟨passes', _, inside'⟩)
    · exact ⟨_, _, .here takes', .inside passes wrapper inner, .refl _⟩
    · obtain ⟨i', j', hi', hj', same⟩ := ih inside'
      exact ⟨_, _, .inside passes' wrapper hi', .inside passes wrapper hj', .inside (.refl _) same⟩
  | fresh passes wrapper takes =>
    rintro q (⟨takes'⟩ | ⟨passes', _, ⟨takes'⟩ | ⟨_, no, _⟩ | ⟨_, no, _⟩⟩)
    · exact ⟨_, _, .here takes', .fresh passes wrapper takes, .refl _⟩
    · refine ⟨_, _, .fresh passes' wrapper takes', .inside passes wrapper (.here takes), .inside (.refl _) (.level ?_)⟩
      exact .swap _ _ _
    · cases no

end Shape

namespace SchemaBuilder
variable {w : Workshop} {site : Site}

theorem placeRule_rearranged {s s' p : Shape} {rule : Rule} (same : s.Rearranged s') (h : placeRule site w s rule = .ok p) :
    ∃ p', placeRule site w s' rule = .ok p' ∧ p.Rearranged p' := by
  obtain ⟨f, found, placed⟩ := placeRule_eq_ok.mp h
  obtain ⟨p', hp', same⟩ := same.places placed
  exact ⟨p', placeRule_eq_ok.mpr ⟨f, found, hp'⟩, same⟩

theorem placeRule_swap {s p q : Shape} {rule rule' : Rule} (hp : placeRule site w s rule = .ok p)
    (hq : placeRule site w p rule' = .ok q) :
    ∃ p' q', placeRule site w s rule' = .ok p' ∧ placeRule site w p' rule = .ok q' ∧ q.Rearranged q' := by
  obtain ⟨f, found, placed⟩ := placeRule_eq_ok.mp hp
  obtain ⟨g, found', placed'⟩ := placeRule_eq_ok.mp hq
  obtain ⟨p', q', hp', hq', same⟩ := placed.swap placed'
  exact ⟨p', q', placeRule_eq_ok.mpr ⟨g, found', hp'⟩, placeRule_eq_ok.mpr ⟨f, found, hq'⟩, same⟩

theorem placeAll_cons {rule : Rule} {rules : List Rule} {s p : Shape} : (rule :: rules).foldlM (placeRule site w) s = .ok p ↔
    ∃ q, placeRule site w s rule = .ok q ∧ rules.foldlM (placeRule site w) q = .ok p := by
  rw [List.foldlM_cons, Except.bind_eq_ok]

theorem placeAll_rearranged : ∀ {rules : List Rule} {s s' p : Shape}, s.Rearranged s' →
    rules.foldlM (placeRule site w) s = .ok p → ∃ p', rules.foldlM (placeRule site w) s' = .ok p' ∧ p.Rearranged p'
  | [], s, s', p, same, h => by
    cases h
    exact ⟨s', rfl, same⟩
  | rule :: rules, s, s', p, same, h => by
    obtain ⟨q, hq, h⟩ := placeAll_cons.mp h
    obtain ⟨q', hq', same⟩ := placeRule_rearranged same hq
    obtain ⟨p', hp', same⟩ := placeAll_rearranged same h
    exact ⟨p', placeAll_cons.mpr ⟨q', hq', hp'⟩, same⟩

/-- Rules that can be placed one after the other can be placed in any order, and then differ in their order on each
level at most. -/
theorem placeAll_perm {rules rules' : List Rule} (perm : rules.Perm rules') : ∀ {s p : Shape},
    rules.foldlM (placeRule site w) s = .ok p → ∃ p', rules'.foldlM (placeRule site w) s = .ok p' ∧ p.Rearranged p' := by
  induction perm with
  | nil => exact placeAll_rearranged (.refl _)
  | cons rule _ ih =>
    intro s p h
    obtain ⟨q, hq, h⟩ := placeAll_cons.mp h
    obtain ⟨p', hp', same⟩ := ih h
    exact ⟨p', placeAll_cons.mpr ⟨q, hq, hp'⟩, same⟩
  | swap rule rule' rules =>
    intro s p h
    obtain ⟨q, hq, h⟩ := placeAll_cons.mp h
    obtain ⟨r, hr, h⟩ := placeAll_cons.mp h
    obtain ⟨q', r', hq', hr', swapped⟩ := placeRule_swap hq hr
    obtain ⟨p', hp', same⟩ := placeAll_rearranged swapped h
    exact ⟨p', placeAll_cons.mpr ⟨q', hq', placeAll_cons.mpr ⟨r', hr', hp'⟩⟩, same⟩
  | trans _ _ ih ih' =>
    intro s p h
    obtain ⟨q, hq, first⟩ := ih h
    obtain ⟨p', hp', next⟩ := ih' hq
    exact ⟨p', hp', first.trans next⟩

end SchemaBuilder

end Conform
