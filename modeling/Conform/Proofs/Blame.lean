import Conform.Proofs.Places

/-!
Who reports a violation. What validation finds is exactly what the levels that it reaches report of
themselves, each under the path that leads there (`Level.mem_findings`). When no rule gives back a report of
its own, that is a missing value, a value of the wrong kind, a variant that is not there, or a rule or a
check that fails on the value.
-/

namespace Conform

/-! ### What a level reports -/

/-- What is reported of a level itself: what its rules find, its own violation, and what its checks find. -/
def Survey.complaints (s : Survey) (h : Host) (v : Value) : List Violation :=
  BoundRule.violationsAll h s.rules v ++ s.own.toList ++ BoundRule.violationsAll h s.checks v

/-- What a survey finds is what is reported of the level and what is found along its branches. -/
theorem Survey.mem_walk {s : Survey} {h : Host} {v : Value} {vs : List Violation} {e : Violation}
    (hw : s.walk h v = .ok vs) :
    e ∈ vs ↔ e ∈ s.complaints h v ∨ ∃ b ∈ s.branches, ∃ ws, walkBranch h b = .ok ws ∧ e ∈ ws := by
  obtain ⟨below, hbelow, rfl⟩ := Survey.walk_eq_ok.mp hw
  have hmem := mem_inTurn hbelow (e := e)
  simp only [List.mem_map] at hmem
  simp only [Survey.complaints, List.mem_append, hmem]
  constructor
  · rintro ((hr | ho) | ⟨ws, ⟨b, hb, hws⟩, he⟩ | hc)
    · exact .inl (.inl (.inl hr))
    · exact .inl (.inl (.inr ho))
    · exact .inr ⟨b, hb, ws, hws, he⟩
    · exact .inl (.inr hc)
  · rintro (((hr | ho) | hc) | ⟨b, hb, ws, hws, he⟩)
    · exact .inl (.inl hr)
    · exact .inl (.inr ho)
    · exact .inr (.inr hc)
    · exact .inr (.inl ⟨ws, ⟨b, hb, hws⟩, he⟩)

/-- When a survey finds something, something is found along each of its branches. -/
theorem Survey.walkBranch_ok {s : Survey} {h : Host} {v : Value} {vs : List Violation} (hw : s.walk h v = .ok vs)
    {b : Branch} (hb : b ∈ s.branches) : ∃ ws, walkBranch h b = .ok ws := by
  obtain ⟨below, hbelow, -⟩ := Survey.walk_eq_ok.mp hw
  cases hwalk : walkBranch h b with
  | ok ws => exact ⟨ws, rfl⟩
  | error f =>
    obtain ⟨g, hg⟩ := inTurn_fails_iff.mpr ⟨f, List.mem_map.mpr ⟨b, hb, hwalk⟩⟩
    cases hg.symm.trans hbelow

theorem walkBranch_eq_ok {h : Host} {b : Branch} {ws : List Violation} (hw : walkBranch h b = .ok ws) :
    ∃ x us, b.value = .ok x ∧ walk h b.node x = .ok us ∧ ws = us.map (Violation.under b.way) := by
  unfold walkBranch at hw
  split at hw
  · cases hw
  · next x hx =>
    obtain ⟨us, hus, rfl⟩ := Except.map_eq_ok.mp hw
    exact ⟨x, us, hx, hus, rfl⟩

/-- A violation that a level reports of a value itself. -/
def Level.Reports (h : Host) (level : Level) (v : Value) (e : Violation) : Prop :=
  ∃ s, level.survey h v = .ok s ∧ e ∈ s.complaints h v

/-- What is found along a step is found, under the step. -/
theorem Level.Step.findings_ok {h : Host} {level : Level} {v x : Value} {p : Path} {m : Node} {vs : List Violation}
    (step : Level.Step h level v p m x) (hw : level.findings h v = .ok vs) :
    ∃ us, walk h m x = .ok us ∧ ∀ e ∈ us, e.under p ∈ vs := by
  obtain ⟨s, hs, b, hb, rfl, rfl, hx⟩ := step.exists_branch
  obtain ⟨s', hs', hw⟩ := Level.findings_eq_ok hw
  cases hs.symm.trans hs'
  obtain ⟨ws, hws⟩ := Survey.walkBranch_ok hw hb
  obtain ⟨y, us, hy, hus, rfl⟩ := walkBranch_eq_ok hws
  cases hx.symm.trans hy
  exact ⟨us, hus, fun e he => (Survey.mem_walk hw).mpr (.inr ⟨b, hb, _, hws, List.mem_map_of_mem he⟩)⟩

/-- A violation is reported of a place that validation reaches, and stands under its path. -/
def Level.Locates (h : Host) (level : Level) (v : Value) (e : Violation) : Prop :=
  ∃ p b x e', Leads h level v p b x ∧ b.Reports h x e' ∧ e = e'.under p

/-- What is found in a value is located when what is found along every step is. -/
theorem Level.locates_of_steps {h : Host} {level : Level} {v : Value} {vs : List Violation} {e : Violation}
    (hw : level.findings h v = .ok vs) (he : e ∈ vs)
    (ih : ∀ p m x, Level.Step h level v p m x → ∀ us, walk h m x = .ok us → ∀ e ∈ us, (Level.node m).Locates h x e) :
    level.Locates h v e := by
  obtain ⟨s, hs, hw⟩ := Level.findings_eq_ok hw
  obtain he | ⟨b, hb, ws, hws, he⟩ := (Survey.mem_walk hw).mp he
  · exact ⟨[], level, v, e, .here, ⟨s, hs, he⟩, rfl⟩
  · obtain ⟨x, us, hx, hus, rfl⟩ := walkBranch_eq_ok hws
    obtain ⟨e₁, he₁, rfl⟩ := List.mem_map.mp he
    have step := Level.Step.of_branch hs hb hx
    obtain ⟨p, c, y, e', leads, reports, rfl⟩ := ih _ _ _ step us hus e₁ he₁
    exact ⟨_, c, y, e', .there step leads, reports, Violation.under_under _ _ _⟩

theorem walk_locates (h : Host) (node : Node) (v : Value) :
    ∀ vs, walk h node v = .ok vs → ∀ e ∈ vs, (Level.node node).Locates h v e := by
  refine walk_induction h (P := fun node v => ∀ vs, walk h node v = .ok vs → ∀ e ∈ vs,
    (Level.node node).Locates h v e) (fun node v ih vs hw e he => ?_) node v
  refine Level.locates_of_steps hw he fun p m x step => ?_
  cases step with
  | node step => exact ih p m x step

/-- Whatever is reported of a place that validation reaches is found, under its path. -/
theorem Leads.mem_findings {h : Host} {level b : Level} {v x : Value} {p : Path} {e : Violation}
    (leads : Leads h level v p b x) (reports : b.Reports h x e) :
    ∀ {vs : List Violation}, level.findings h v = .ok vs → e.under p ∈ vs := by
  induction leads with
  | here =>
    intro vs hw
    obtain ⟨s, hs, he⟩ := reports
    obtain ⟨s', hs', hw⟩ := Level.findings_eq_ok hw
    cases hs.symm.trans hs'
    exact (Survey.mem_walk hw).mpr (.inl he)
  | there step rest ih =>
    intro vs hw
    obtain ⟨us, hus, hmem⟩ := step.findings_ok hw
    rw [← Violation.under_under]
    exact hmem _ (ih reports hus)

/-- Validation finds exactly what is reported of the places that it reaches. -/
theorem Level.mem_findings {h : Host} {level : Level} {v : Value} {vs : List Violation} {e : Violation}
    (hw : level.findings h v = .ok vs) : e ∈ vs ↔ level.Locates h v e := by
  constructor
  · intro he
    exact Level.locates_of_steps hw he fun p m x _ => walk_locates h m x
  · rintro ⟨p, b, x, e', leads, reports, rfl⟩
    exact leads.mem_findings reports hw

end Conform
