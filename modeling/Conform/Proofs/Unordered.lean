import Conform.Proofs.Likeness
import Conform.Proofs.Rearranging
import Conform.Proofs.Relaxing

/-!
The order in which rules are declared, and the calls they are declared in. Conflicts are found between two rules at a time,
and it does not matter which of them is the earlier one, as long as equality of their parameters goes both ways
(`Workshop.Even`). So a field is accepted with its rules in every order or in none (`SchemaBuilder.Rearranged`). Checks that
are declared in several calls are compared with all earlier ones, as they are in one call.
-/

namespace Conform

/-! ### Conflicts -/

namespace BoundRule

theorem boundPair_comm (a b : BoundRule) : boundPair a b = boundPair b a := by
  unfold boundPair isBound
  grind

theorem checkAgainst_of_pairs {rule : BoundRule} {site : Site} : ∀ {before : List BoundRule},
    (∀ earlier ∈ before, checkPair earlier rule site = .ok ()) → rule.checkAgainst site before = .ok ()
  | [], _ => rfl
  | earlier :: rest, pairs => by
    rw [checkAgainst, pairs earlier List.mem_cons_self]
    exact checkAgainst_of_pairs fun e he => pairs e (List.mem_cons_of_mem _ he)

/-- Rules have no conflicts when no two of them are refused, the earlier one before the later. -/
theorem checkConflicts_of_pairs {site : Site} : ∀ {rules before : List BoundRule},
    (before ++ rules).Pairwise (fun earlier rule => checkPair earlier rule site = .ok ()) →
      checkConflicts site before rules = .ok ()
  | [], _, _ => rfl
  | rule :: rest, before, pairs => by
    have here : rule.checkAgainst site before = .ok () :=
      checkAgainst_of_pairs fun e he => (List.pairwise_append.mp pairs).2.2 e he rule List.mem_cons_self
    rw [checkConflicts, here]
    exact checkConflicts_of_pairs (by simpa using pairs)

/-- The order of two rules does not matter to their check, when rules of one name have one function and equality of their
parameters goes both ways. -/
theorem checkPair_symm {a b : BoundRule} {site : Site} (function : a.name = b.name → a.function = b.function)
    (even : a.name = b.name → a.param.same b.param = true → b.param.same a.param = true)
    (h : checkPair a b site = .ok ()) : checkPair b a site = .ok () := by
  unfold checkPair at h ⊢
  have twice : ¬(a.name = b.name ∧ a.param.same b.param = true) := by
    rintro ⟨name, same⟩
    rw [if_pos ⟨name.symm, even name same⟩] at h
    cases h
  rw [if_neg twice]
  split at h
  · cases h
  have exclusive : ¬(a.name = b.name ∧ a.function.exclusive = true) := by
    rintro ⟨name, exclusive⟩
    rw [if_pos ⟨name.symm, function name ▸ exclusive⟩] at h
    cases h
  rw [if_neg exclusive]
  split at h
  · cases h
  rw [checkBounds, boundPair_comm]
  exact h

end BoundRule

/-! ### Binding -/

theorem mapM_of_forall₂ {α β : Type} {f : α → Except Fault β} {xs : List α} {ys : List β}
    (h : List.Forall₂ (fun x y => f x = .ok y) xs ys) : xs.mapM f = .ok ys := by
  induction h with
  | nil => rfl
  | cons hy _ ih =>
    rw [List.mapM_cons]
    exact Except.bind_eq_ok.mpr ⟨_, hy, Except.bind_eq_ok.mpr ⟨_, ih, rfl⟩⟩

theorem mapM_perm {α β : Type} {f : α → Except Fault β} {xs xs' : List α} {ys : List β} (perm : xs.Perm xs')
    (h : xs.mapM f = .ok ys) : ∃ ys', xs'.mapM f = .ok ys' ∧ ys.Perm ys' := by
  obtain ⟨ys', each, perm⟩ := List.perm_comp_forall₂ perm.symm (forall₂_of_mapM h)
  exact ⟨ys', mapM_of_forall₂ each, perm.symm⟩

/-- A parameter that some rule gives to a function. -/
def Workshop.Gives (w : Workshop) (rules : List Rule) (f : ConstraintFunction) (p : Value) : Prop :=
  ∃ rule ∈ rules, w.table.find? rule.name = some f ∧ w.resolve f rule.param = .ok p

/-- A bound rule that is what some rule becomes. -/
def Workshop.Declares (w : Workshop) (rules : List Rule) (r : BoundRule) : Prop :=
  w.table.find? r.name = some r.function ∧ w.Gives rules r.function r.param

/-- Rules where equality of the parameters of one function goes both ways. -/
def Workshop.Even (w : Workshop) (rules : List Rule) : Prop :=
  ∀ f p q, w.Gives rules f p → w.Gives rules f q → p.same q = true → q.same p = true

theorem Workshop.Even.mono {w : Workshop} {rules rules' : List Rule} (even : w.Even rules) (sub : rules' ⊆ rules) :
    w.Even rules' := by
  have more {f : ConstraintFunction} {p : Value} : w.Gives rules' f p → w.Gives rules f p := by
    rintro ⟨rule, hm, given⟩
    exact ⟨rule, sub hm, given⟩
  exact fun f p q hp hq => even f p q (more hp) (more hq)

theorem Workshop.even_of_proper {w : Workshop} {P : Program} {rules : List Rule}
    (proper : ∀ f p, w.Gives rules f p → p.Proper P) : w.Even rules :=
  fun f p q hp hq => Value.same_symm (proper f p hp) (proper f q hq)

theorem ParameterCheck.run_alike {h : Host} {c : ParameterCheck} {param : Value} {s s' : Shape} (engine : ∀ g, c ≠ .custom g)
    (kind : s'.kind = s.kind) (type : s'.declaredType = s.declaredType) : c.run h param s' = c.run h param s := by
  unfold run answer
  cases c with
  | ordinal | equal | pattern => simp only [checkOrdinal, checkEqual, checkPattern, type]
  | length => simp only [checkLength, type, kind]
  | predicate | oneOf => rfl
  | custom g => exact (engine g rfl).elim

namespace Workshop
variable {w : Workshop} {site : Site} {s s' : Shape}

theorem bindRules_eq_ok {existing all : List BoundRule} : w.bindRules s site existing = .ok all ↔
    ∃ bound, s.rules.mapM (w.bindRule s site) = .ok bound ∧ all = existing ++ bound ∧
      all.Pairwise fun earlier rule => BoundRule.checkPair earlier rule site = .ok () := by
  unfold bindRules
  constructor
  · intro h
    obtain ⟨bound, hbound, h⟩ := Except.bind_eq_ok.mp h
    obtain ⟨u, hu, h⟩ := Except.bind_eq_ok.mp h
    cases h
    exact ⟨bound, hbound, rfl, (BoundRule.checkConflicts_ok hu).1⟩
  · rintro ⟨bound, hbound, rfl, pairs⟩
    exact Except.bind_eq_ok.mpr ⟨bound, hbound, Except.bind_eq_ok.mpr ⟨(), BoundRule.checkConflicts_of_pairs pairs, rfl⟩⟩

/-- Nothing else is asked of a shape than that its rules are bound and that it has what its kind needs. -/
theorem compile_of_cases {kind : FieldKind} {rules : List Rule} {type : Value} {inner keys : Option Shape} {target : Target}
    {cases : Option (List (Value × Payload))} {tag : Value} {n : Node} {bound : List BoundRule}
    (own : w.bindRules (.mk kind rules type inner keys target cases tag) site [] = .ok bound)
    (shaped : kind = .scalar ∧ checkScalarType type site = .ok () ∧ n = .scalar bound type ∨
      (∃ wr : Wrapper, kind = wr.kind ∧ ∃ i k, w.compileInner site inner = .ok i ∧ w.compileKeys site keys = .ok k ∧
        n = .wrapper wr bound (some i) k) ∨
      kind = .nested ∧ w.checkTarget target site = .ok () ∧ n = .nested bound target ∨
      kind = .enum ∧ ∃ all done, cases = some all ∧ all ≠ [] ∧ w.compileCases site all [] = .ok done ∧
        n = .variants bound done tag) :
    w.compile site (.mk kind rules type inner keys target cases tag) = .ok n := by
  rw [compile]
  refine Except.bind_eq_ok.mpr ⟨bound, own, ?_⟩
  obtain ⟨rfl, hu, rfl⟩ | ⟨wr, rfl, i, k, hi, hk, rfl⟩ | ⟨rfl, hu, rfl⟩ | ⟨rfl, all, done, rfl, some, hdone, rfl⟩ := shaped
  · exact Except.bind_eq_ok.mpr ⟨(), hu, rfl⟩
  · cases wr <;> exact Except.bind_eq_ok.mpr ⟨i, hi, Except.bind_eq_ok.mpr ⟨k, hk, rfl⟩⟩
  · exact Except.bind_eq_ok.mpr ⟨(), hu, rfl⟩
  · cases all with
    | nil => exact absurd rfl some
    | cons e all => exact Except.bind_eq_ok.mpr ⟨done, hdone, rfl⟩

/-- Of what even rules become, it does not matter which of two is the earlier one. -/
theorem checkPairs_perm {rules : List Rule} (even : w.Even rules) {bound bound' : List BoundRule} (same : bound.Perm bound')
    (declared : ∀ r ∈ bound, w.Declares rules r)
    (pairs : bound.Pairwise fun earlier rule => BoundRule.checkPair earlier rule site = .ok ()) :
    bound'.Pairwise fun earlier rule => BoundRule.checkPair earlier rule site = .ok () := by
  have symm {a b : BoundRule} (pair : w.Declares rules a → w.Declares rules b → BoundRule.checkPair a b site = .ok ())
      (hb : w.Declares rules b) (ha : w.Declares rules a) : BoundRule.checkPair b a site = .ok () := by
    have function (name : a.name = b.name) : a.function = b.function := Option.some.inj (ha.1.symm.trans (name ▸ hb.1))
    refine BoundRule.checkPair_symm function (fun name => ?_) (pair ha hb)
    exact even a.function a.param b.param ha.2 (function name ▸ hb.2)
  have pairs' := (same.pairwise_iff symm).mp (pairs.imp fun pair _ _ => pair)
  exact pairs'.imp_of_mem fun ha hb pair => pair (declared _ (same.mem_iff.mpr ha)) (declared _ (same.mem_iff.mpr hb))

section Engine
variable (engine : ∀ f ∈ w.table.functions, f ∈ FunctionTable.builtins)
include engine

/-- The functions of the engine see of a shape its kind and the class of its values only. -/
theorem bindRule_alike {rule : Rule} {b : BoundRule} (h : w.bindRule s site rule = .ok b) (kind : s'.kind = s.kind)
    (type : s'.declaredType = s.declaredType) : w.bindRule s' site rule = .ok b := by
  obtain ⟨found, applies, resolved, passes⟩ := bindRule_cases h
  refine bindRule_ok found (by rwa [kind]) resolved fun check checked => ?_
  rw [ParameterCheck.run_alike (fun g custom => ?_) kind type]
  · exact passes check checked
  · exact FunctionTable.checkParam_builtins (engine _ (mem_of_lookUp found)) g (checked.trans (congrArg some custom))

theorem bindRules_perm {existing all : List BoundRule} (h : w.bindRules s site existing = .ok all)
    (even : w.Even s.rules) (perm : s.rules.Perm s'.rules) (kind : s'.kind = s.kind)
    (type : s'.declaredType = s.declaredType) : ∃ all', w.bindRules s' site existing = .ok all' ∧ all.Perm all' := by
  obtain ⟨bound, hbound, rfl, pairs⟩ := bindRules_eq_ok.mp h
  obtain ⟨bound', hbound', same⟩ := mapM_perm perm hbound
  have again : s'.rules.mapM (w.bindRule s' site) = .ok bound' :=
    mapM_of_forall₂ ((forall₂_of_mapM hbound').imp fun _ _ hb => bindRule_alike engine hb kind type)
  refine ⟨existing ++ bound', bindRules_eq_ok.mpr ⟨bound', again, rfl, ?_⟩, same.append_left existing⟩
  have declared : ∀ r ∈ bound, w.Declares s.rules r := by
    intro r hr
    obtain ⟨rule, hm, hr⟩ := mem_mapM hbound hr
    obtain ⟨found, -, resolved, -⟩ := bindRule_cases hr
    exact ⟨(bindRule_fits hr).found, rule, hm, find?_of_lookUp found, resolved⟩
  -- Earlier checks stay in front of all rules, so only pairs of these rules change their order.
  obtain ⟨first, own, across⟩ := List.pairwise_append.mp pairs
  refine List.pairwise_append.mpr ⟨first, checkPairs_perm even same declared own, fun e he r hr => ?_⟩
  exact across e he r (same.mem_iff.mpr hr)

/-- The rules of a structure can be bound in two parts, the first before the second. -/
theorem bindRules_append {target : Target} {first next : List Rule} {existing all : List BoundRule} :
    w.bindRules (.nested target (first ++ next)) site existing = .ok all ↔
      ∃ middle, w.bindRules (.nested target first) site existing = .ok middle ∧
        w.bindRules (.nested target next) site middle = .ok all := by
  have alike {rules rules' : List Rule} (each : List Rule) {bound : List BoundRule}
      (h : each.mapM (w.bindRule (.nested target rules) site) = .ok bound) :
      each.mapM (w.bindRule (.nested target rules') site) = .ok bound := by
    refine mapM_of_forall₂ ((forall₂_of_mapM h).imp fun rule b hb => ?_)
    have kind : (Shape.nested target rules').kind = (Shape.nested target rules).kind := rfl
    have type : (Shape.nested target rules').declaredType = (Shape.nested target rules).declaredType := by simp
    exact bindRule_alike engine hb kind type
  simp only [bindRules_eq_ok, Shape.nested, Shape.rules] at alike ⊢
  constructor
  · rintro ⟨bound, h, rfl, pairs⟩
    rw [List.mapM_append] at h
    obtain ⟨here, hhere, h⟩ := Except.bind_eq_ok.mp h
    obtain ⟨later, hlater, h⟩ := Except.bind_eq_ok.mp h
    cases h
    rw [← List.append_assoc] at pairs
    exact ⟨_, ⟨here, alike first hhere, rfl, (List.pairwise_append.mp pairs).1⟩, later, alike next hlater,
      (List.append_assoc ..).symm, List.append_assoc existing .. ▸ pairs⟩
  · rintro ⟨_, ⟨here, hhere, rfl, -⟩, later, hlater, rfl, pairs⟩
    refine ⟨here ++ later, ?_, List.append_assoc .., pairs⟩
    rw [List.mapM_append]
    exact Except.bind_eq_ok.mpr ⟨here, alike first hhere, Except.bind_eq_ok.mpr ⟨later, alike next hlater, rfl⟩⟩

/-- Shapes whose rules are bound to the same rules, and that have the same inside but for the order of rules, are compiled
to nodes that find the same. -/
theorem compile_level {kind : FieldKind} {rules rules' : List Rule} {type : Value} {inner inner' keys : Option Shape}
    {target : Target} {cases : Option (List (Value × Payload))} {tag : Value} {n : Node}
    (h : w.compile site (.mk kind rules type inner keys target cases tag) = .ok n)
    (declared : (Shape.mk kind rules' type inner' keys target cases tag).declaredType
      = (Shape.mk kind rules type inner keys target cases tag).declaredType)
    (perm : rules.Perm rules') (even : w.Even rules)
    (inside : kind.isWrapper = true → ∀ i, w.compileInner site inner = .ok i →
      ∃ i', w.compileInner site inner' = .ok i' ∧ i.Rearranged i') :
    ∃ n', w.compile site (.mk kind rules' type inner' keys target cases tag) = .ok n' ∧ n.Rearranged n' := by
  obtain ⟨bound, hbound, shaped⟩ := compile_cases h
  obtain ⟨bound', hbound', same⟩ :=
    @bindRules_perm _ _ _ (.mk kind rules' type inner' keys target cases tag) engine _ _ hbound even perm rfl declared
  obtain ⟨rfl, hu, rfl⟩ | ⟨wr, rfl, i, k, hi, hk, rfl⟩ | ⟨rfl, hu, rfl⟩ | ⟨rfl, all, done, rfl, some, hdone, rfl⟩ := shaped
  · exact ⟨_, compile_of_cases hbound' (.inl ⟨rfl, hu, rfl⟩), Node.rearranged_scalar same type⟩
  · obtain ⟨i', hi', within⟩ := inside (Shape.isWrapper_kind wr) i hi
    exact ⟨_, compile_of_cases hbound' (.inr (.inl ⟨wr, rfl, i', k, hi', hk, rfl⟩)), Node.rearranged_wrapper same within wr k⟩
  · exact ⟨_, compile_of_cases hbound' (.inr (.inr (.inl ⟨rfl, hu, rfl⟩))), Node.rearranged_nested same target⟩
  · exact ⟨_, compile_of_cases hbound' (.inr (.inr (.inr ⟨rfl, all, done, rfl, some, hdone, rfl⟩))),
      Node.rearranged_variants same done tag⟩

/-- A shape compiles in every order of the rules on its levels when it compiles in one, to a node that finds the same. -/
theorem compile_rearranged (same : s.Rearranged s') : ∀ {site : Site} {n : Node}, w.Even s.allRules →
    w.compile site s = .ok n → ∃ n', w.compile site s' = .ok n' ∧ n.Rearranged n' := by
  induction same with
  | @level kind rules rules' type inner keys target cases tag perm =>
    intro site n even h
    have own : w.Even rules := even.mono (by rw [Shape.allRules]; exact List.subset_append_left ..)
    exact compile_level engine h (Shape.Rearranged.level perm).declaredType perm own fun _ i hi => ⟨i, hi, .refl i⟩
  | @inside kind rules rules' type s s' keys target cases tag perm inner ih =>
    intro site n even h
    have own : w.Even rules := even.mono (by rw [Shape.allRules]; exact List.subset_append_left ..)
    refine compile_level engine h (Shape.Rearranged.inside perm inner).declaredType perm own fun wrapper i hi => ?_
    rw [compileInner] at hi ⊢
    refine ih (even.mono fun rule hm => ?_) hi
    rw [Shape.allRules, if_pos wrapper, Shape.rulesWithin.eq_def (some s)]
    exact List.mem_append_right _ (List.mem_append_right _ hm)

end Engine

end Workshop

/-! ### Declaring -/

namespace Rule
variable {spellings spellings' : List RuleSpelling} {named : List (String × Value)} {rules : List Rule}

theorem ofSpellings_eq_ok : ofSpellings spellings named = .ok rules ↔
    ∃ each, spellings.mapM ofSpelling = .ok each ∧ rules = each.flatten ++ named.map fun (n, p) => ⟨n, p⟩ := by
  unfold ofSpellings
  rw [Except.bind_eq_ok]
  constructor
  · rintro ⟨each, h, same⟩
    cases same
    exact ⟨each, h, rfl⟩
  · rintro ⟨each, h, rfl⟩
    exact ⟨each, h, rfl⟩

theorem ofSpellings_perm (perm : spellings.Perm spellings') (h : ofSpellings spellings named = .ok rules) :
    ∃ rules', ofSpellings spellings' named = .ok rules' ∧ rules.Perm rules' := by
  obtain ⟨each, hm, rfl⟩ := ofSpellings_eq_ok.mp h
  obtain ⟨each', hm', same⟩ := mapM_perm perm hm
  exact ⟨_, ofSpellings_eq_ok.mpr ⟨each', hm', rfl⟩, same.flatten.append_right _⟩

theorem ofSpellings_append : ofSpellings (spellings ++ spellings') [] = .ok rules ↔
    ∃ first next, ofSpellings spellings [] = .ok first ∧ ofSpellings spellings' [] = .ok next ∧ rules = first ++ next := by
  simp only [ofSpellings_eq_ok, List.map_nil, List.append_nil, List.mapM_append, Except.bind_eq_ok]
  constructor
  · rintro ⟨_, ⟨each, hm, each', hm', same⟩, rfl⟩
    cases same
    exact ⟨_, _, ⟨each, hm, rfl⟩, ⟨each', hm', rfl⟩, List.flatten_append⟩
  · rintro ⟨_, _, ⟨each, hm, rfl⟩, ⟨each', hm', rfl⟩, rfl⟩
    exact ⟨_, ⟨each, hm, each', hm', rfl⟩, List.flatten_append.symm⟩

end Rule

/-- The outcomes of declaring a field with its rules in two orders: both are refused, or both are accepted, and then the
fields, and the schemas with them, report the same violations of every value. -/
inductive SchemaBuilder.Rearranged (b : SchemaBuilder) (name : Value) :
    Except Fault SchemaBuilder → Except Fault SchemaBuilder → Prop where
  | accepted {n n' : Node} (field : ∀ h v, Matches Report.Rearranged (n.validate h v) (n'.validate h v))
      (schema : ∀ h serial v, Matches Report.Rearranged
        ((({ b with fields := b.fields ++ [(name, n)] } : SchemaBuilder).build serial).validate h v)
        ((({ b with fields := b.fields ++ [(name, n')] } : SchemaBuilder).build serial).validate h v)) :
      SchemaBuilder.Rearranged b name (.ok { b with fields := b.fields ++ [(name, n)] })
        (.ok { b with fields := b.fields ++ [(name, n')] })
  | refused {f g : Fault} : SchemaBuilder.Rearranged b name (.error f) (.error g)

namespace SchemaBuilder
variable {b : SchemaBuilder} {h : Host} {t : FunctionTable} {name : Value} {n n' : Node}

theorem Rearranged.of_nodes (same : n.Rearranged n') : b.Rearranged name (.ok { b with fields := b.fields ++ [(name, n)] })
    (.ok { b with fields := b.fields ++ [(name, n')] }) := by
  refine .accepted (fun h v => ?_) fun h serial v => ?_
  · rw [Node.validate_eq_walk, Node.validate_eq_walk]
    exact (same h v).report v
  · by_cases absent : v.isAbsent = true
    · rw [Schema.validate, Schema.validate, dif_pos absent, dif_pos absent]
      exact .ok ⟨rfl, rfl, .refl _⟩
    · rw [Schema.validate_eq_walk, Schema.validate_eq_walk, walk_concat n absent, walk_concat n' absent]
      have earlier (found : Except Fault (List Violation)) : Matches List.Perm found found := .refl (fun _ => .refl _) found
      refine Matches.report v ((Matches.ok (.refl _)).andThen (.andThen (.andThen (earlier _) ?_) (.ok (.refl _))))
      unfold walkBranch
      rcases v.field name with f | x
      · exact .error f
      · exact (same h x).inward _

variable (engine : ∀ f ∈ t.functions, f ∈ FunctionTable.builtins)
include engine

theorem fieldNode_perm {site : Site} {s : Shape} {rules rules' : List Rule} (perm : rules.Perm rules')
    (even : (b.workshop h t).Even (s.allRules ++ rules)) (accepted : b.fieldNode h t site s rules = .ok n) :
    ∃ n', b.fieldNode h t site s rules' = .ok n' ∧ n.Rearranged n' := by
  obtain ⟨p, hp, compiled⟩ := Except.bind_eq_ok.mp accepted
  obtain ⟨p', hp', same⟩ := placeAll_perm perm hp
  have placed : (b.workshop h t).Even p.allRules := even.mono (placeAll_keeps hp).1.subset
  obtain ⟨n', hn', same⟩ := Workshop.compile_rearranged engine same placed compiled
  exact ⟨n', Except.bind_eq_ok.mpr ⟨p', hp', hn'⟩, same⟩

theorem field_perm {spelling : ShapeSpelling} {spellings spellings' : List RuleSpelling} {named : List (String × Value)}
    (perm : spellings.Perm spellings')
    (even : ∀ s rules, Shape.ofSpelling spelling = .ok s → Rule.ofSpellings spellings named = .ok rules →
      (b.workshop h t).Even (s.allRules ++ rules)) :
    b.Rearranged name (b.field h t name spelling spellings named) (b.field h t name spelling spellings' named) := by
  rw [field_eq, field_eq]
  split
  · exact .refused
  rcases shaped : Shape.ofSpelling spelling with f | s
  · exact .refused
  rcases spelled : Rule.ofSpellings spellings named with f | rules
  · rcases spelled' : Rule.ofSpellings spellings' named with g | rules'
    · exact .refused
    · obtain ⟨_, ok, -⟩ := Rule.ofSpellings_perm perm.symm spelled'
      cases spelled.symm.trans ok
  obtain ⟨rules', spelled', same⟩ := Rule.ofSpellings_perm perm spelled
  rw [spelled']
  have even := even s rules shaped spelled
  have even' : (b.workshop h t).Even (s.allRules ++ rules') := even.mono (same.append_left _).symm.subset
  change b.Rearranged name (Except.map _ (b.fieldNode h t _ s rules)) (Except.map _ (b.fieldNode h t _ s rules'))
  rcases strict : b.fieldNode h t _ s rules with f | n
  · rcases other : b.fieldNode h t _ s rules' with g | n'
    · exact .refused
    · obtain ⟨_, hn, -⟩ := fieldNode_perm engine same.symm even' other
      cases strict.symm.trans hn
  · obtain ⟨n', hn', same⟩ := fieldNode_perm engine same even strict
    rw [hn']
    exact .of_nodes same

omit engine in
theorem check_eq_ok {spellings : List RuleSpelling} {named : List (String × Value)} {b' : SchemaBuilder} :
    b.check h t spellings named = .ok b' ↔ ∃ rules checks, Rule.ofSpellings spellings named = .ok rules ∧
      (b.workshop h t).bindRules (.nested (.value b.targetType) rules) { schema := b.name } b.checks = .ok checks ∧
      b' = { b with checks } := by
  unfold check
  constructor
  · intro accepted
    obtain ⟨rules, hrules, accepted⟩ := Except.bind_eq_ok.mp accepted
    obtain ⟨checks, hchecks, accepted⟩ := Except.bind_eq_ok.mp accepted
    cases accepted
    exact ⟨rules, checks, malformed_eq_ok hrules, hchecks, rfl⟩
  · rintro ⟨rules, checks, hrules, hchecks, rfl⟩
    rw [hrules]
    exact Except.bind_eq_ok.mpr ⟨rules, rfl, Except.bind_eq_ok.mpr ⟨checks, hchecks, rfl⟩⟩

/-- Checks that are accepted one call after the other are accepted in one call, and the other way round. -/
theorem check_append {first next : List RuleSpelling} {b' : SchemaBuilder} :
    b.check h t (first ++ next) [] = .ok b' ↔ ∃ b₁, b.check h t first [] = .ok b₁ ∧ b₁.check h t next [] = .ok b' := by
  simp only [check_eq_ok, Rule.ofSpellings_append]
  constructor
  · rintro ⟨_, checks, ⟨rules, rules', hrules, hrules', rfl⟩, hchecks, rfl⟩
    obtain ⟨middle, hmiddle, hchecks⟩ := (Workshop.bindRules_append engine).mp hchecks
    exact ⟨_, ⟨rules, middle, hrules, hmiddle, rfl⟩, rules', checks, hrules', hchecks, rfl⟩
  · rintro ⟨_, ⟨rules, middle, hrules, hmiddle, rfl⟩, rules', checks, hrules', hchecks, rfl⟩
    have hchecks := (Workshop.bindRules_append engine).mpr ⟨middle, hmiddle, hchecks⟩
    exact ⟨_, checks, ⟨rules, rules', hrules, hrules', rfl⟩, hchecks, rfl⟩

theorem check_calls {b' : SchemaBuilder} : ∀ {calls : List (List RuleSpelling)}, calls ≠ [] → ∀ {b : SchemaBuilder},
    (calls.foldlM (fun b rules => b.check h t rules []) b = .ok b' ↔ b.check h t calls.flatten [] = .ok b')
  | [], given, _ => absurd rfl given
  | [rules], _, b => by
    rw [List.foldlM_cons, List.flatten_cons, List.flatten_nil, List.append_nil, Except.bind_eq_ok]
    constructor
    · rintro ⟨_, first, rest⟩
      cases rest
      exact first
    · intro first
      exact ⟨b', first, rfl⟩
  | rules :: next :: calls, _, b => by
    rw [List.foldlM_cons, List.flatten_cons, check_append engine, Except.bind_eq_ok]
    simp only [check_calls (List.cons_ne_nil next calls)]

theorem check_perm {spellings spellings' : List RuleSpelling} {named : List (String × Value)} {b' : SchemaBuilder}
    (perm : spellings.Perm spellings')
    (even : ∀ rules, Rule.ofSpellings spellings named = .ok rules → (b.workshop h t).Even rules)
    (accepted : b.check h t spellings named = .ok b') : ∃ b', b.check h t spellings' named = .ok b' := by
  obtain ⟨rules, checks, hrules, hchecks, rfl⟩ := check_eq_ok.mp accepted
  obtain ⟨rules', hrules', same⟩ := Rule.ofSpellings_perm perm hrules
  obtain ⟨checks', hchecks', -⟩ := @Workshop.bindRules_perm (b.workshop h t) _ _ (.nested (.value b.targetType) rules') engine
    _ _ hchecks (even rules hrules) same rfl (by simp)
  exact ⟨_, check_eq_ok.mpr ⟨rules', checks', hrules', hchecks', rfl⟩⟩

end SchemaBuilder

/-- With the functions of the engine it does not matter in what order rules are declared, as long as equality of their
parameters goes both ways, as it does for proper values. A field is accepted with its rules in every order or in none, and
reports the same violations of every value, as does the schema with it. Checks are accepted in one call just when they are
in several, each with the next of them, and are the same checks in the end; and they are accepted in every order or in
none. -/
theorem rules_in_any_order {b : SchemaBuilder} {h : Host} {t : FunctionTable}
    (engine : ∀ f ∈ t.functions, f ∈ FunctionTable.builtins) :
    (∀ {P : Program} {rules : List Rule}, (∀ f p, (b.workshop h t).Gives rules f p → p.Proper P) →
      (b.workshop h t).Even rules) ∧
    (∀ {name : Value} {spelling : ShapeSpelling} {rules rules' : List RuleSpelling} {named : List (String × Value)},
      rules.Perm rules' →
      (∀ s declared, Shape.ofSpelling spelling = .ok s → Rule.ofSpellings rules named = .ok declared →
        (b.workshop h t).Even (s.allRules ++ declared)) →
      b.Rearranged name (b.field h t name spelling rules named) (b.field h t name spelling rules' named)) ∧
    (∀ {calls : List (List RuleSpelling)} {b' : SchemaBuilder}, calls ≠ [] →
      (calls.foldlM (fun b rules => b.check h t rules []) b = .ok b' ↔ b.check h t calls.flatten [] = .ok b')) ∧
    ∀ {rules rules' : List RuleSpelling} {named : List (String × Value)}, rules.Perm rules' →
      (∀ declared, Rule.ofSpellings rules named = .ok declared → (b.workshop h t).Even declared) →
      ((∃ b', b.check h t rules named = .ok b') ↔ ∃ b', b.check h t rules' named = .ok b') := by
  refine ⟨Workshop.even_of_proper, SchemaBuilder.field_perm engine,
    fun some => SchemaBuilder.check_calls engine some, fun perm even => ⟨?_, ?_⟩⟩
  · rintro ⟨b', accepted⟩
    exact SchemaBuilder.check_perm engine perm even accepted
  · rintro ⟨b', accepted⟩
    refine SchemaBuilder.check_perm engine perm.symm (fun declared spelled => ?_) accepted
    obtain ⟨declared', spelled', same⟩ := Rule.ofSpellings_perm perm.symm spelled
    exact (even declared' spelled').mono same.subset

/-- A program that declares nothing. -/
abbrev Program.bare : Program := ⟨fun _ _ => .absent, fun serial => ⟨serial, "", "", [], none⟩, fun _ => .absent⟩

/-- Votes for places from the first one on. -/
abbrev Shape.places : Shape := .wrapper .sequence (some (.scalar (.cls (.builtin .int) []) [⟨"min", .int 1⟩])) none []

/-- The limits of votes and of their number, and the votes that are allowed, may be declared in any order. The same goes for
two checks of the poll, which may also be declared together or one after the other. -/
theorem rules_in_any_order_on_votes :
    (∃ b b', SchemaBuilder.field { name := .text "Poll" } .bare .default (.text "votes") (.shape .places)
        [.rule ⟨"max", .int 9⟩, .rule ⟨"one_of", .set true [.int 1, .int 9]⟩, .rule ⟨"max_len", .int 3⟩] [] = .ok b ∧
      SchemaBuilder.field { name := .text "Poll" } .bare .default (.text "votes") (.shape .places)
        [.rule ⟨"max_len", .int 3⟩, .rule ⟨"one_of", .set true [.int 1, .int 9]⟩, .rule ⟨"max", .int 9⟩] [] = .ok b' ∧
      SchemaBuilder.Rearranged { name := .text "Poll" } (.text "votes") (.ok b) (.ok b')) ∧
    ∃ b', [[.rule ⟨"predicate", .cls (.builtin .bool) []⟩], [.rule ⟨"equal", .text "x"⟩]].foldlM
        (fun b rules => SchemaBuilder.check b .bare .default rules []) { name := .text "Poll" } = .ok b' ∧
      SchemaBuilder.check { name := .text "Poll" } .bare .default
        [.rule ⟨"predicate", .cls (.builtin .bool) []⟩, .rule ⟨"equal", .text "x"⟩] [] = .ok b' ∧
      ∃ b'', SchemaBuilder.check { name := .text "Poll" } .bare .default
        [.rule ⟨"equal", .text "x"⟩, .rule ⟨"predicate", .cls (.builtin .bool) []⟩] [] = .ok b'' := by
  have anywhere := @rules_in_any_order { name := .text "Poll" } .bare .default fun _ hf => hf
  obtain ⟨proper, fields, calls, checks⟩ := anywhere
  -- Without a resolver the parameters are those that were declared.
  have even {rules : List Rule} (each : ∀ rule ∈ rules, rule.param.Proper .bare) :
      (SchemaBuilder.workshop { name := .text "Poll" } .bare .default).Even rules := by
    refine @proper .bare rules ?_
    rintro f p ⟨rule, hm, -, resolved⟩
    cases resolved
    exact each rule hm
  have bare {v : Value} (made : v.Made .bare) (none : v.sought = []) (empty : v.parts = []) : v.Proper .bare :=
    .intro made (by simp [none]) (by simp [empty])
  have whole (n : Int) : (Value.int n).Proper .bare := bare trivial rfl rfl
  have firm (n : Int) : (Value.int n).Firm := .intro trivial (by simp [Value.parts])
  have allowed : (Value.set true [.int 1, .int 9]).Proper .bare := by
    refine .intro ?_ ?_ ?_
    · simp [Value.Made, Value.same, Value.sameUndefined, Value.eq, Value.scalarEq, Value.magnitude?, Magnitude.ofInt,
        Magnitude.same]
    · simp [Value.sought, firm]
    · simp [Value.parts, whole]
  constructor
  · have same := @fields (.text "votes") (.shape .places)
      [.rule ⟨"max", .int 9⟩, .rule ⟨"one_of", .set true [.int 1, .int 9]⟩, .rule ⟨"max_len", .int 3⟩] _ []
      (List.reverse_perm _).symm fun s declared shaped spelled => even ?_
    · exact ⟨_, _, rfl, rfl, same⟩
    · have own : Shape.places.allRules = [⟨"min", .int 1⟩] := by
        simp [Shape.wrapper, Shape.scalar, Shape.allRules, Shape.rulesWithin, Wrapper.kind, FieldKind.isWrapper]
      cases shaped
      cases spelled
      rw [own]
      exact List.forall_mem_cons.mpr ⟨whole 1, List.forall_mem_cons.mpr ⟨whole 9, List.forall_mem_cons.mpr
        ⟨allowed, List.forall_mem_singleton.mpr (whole 3)⟩⟩⟩
  · have apart : ([[.rule ⟨"predicate", .cls (.builtin .bool) []⟩], [.rule ⟨"equal", .text "x"⟩]] :
        List (List RuleSpelling)) ≠ [] := List.cons_ne_nil _ _
    have together := (calls apart).mp rfl
    refine ⟨_, rfl, together, (checks (.swap _ _ _) fun declared spelled => even ?_).mp ⟨_, together⟩⟩
    cases spelled
    have truth : (Value.cls (.builtin .bool) []).Proper .bare := bare trivial rfl rfl
    have text : (Value.text "x").Proper .bare := bare trivial rfl rfl
    exact List.forall_mem_cons.mpr ⟨truth, List.forall_mem_singleton.mpr text⟩

/-- A lower bound that is a set. -/
abbrev BoundRule.least (members : List Value) : BoundRule :=
  ⟨{ name := "min", check := .builtin .min, appliesTo := [.scalar], checkParam := some .ordinal,
      bound := some "lower", group := some "value", description := "value >= bound" }, .set false members⟩

/-- A field with two lower bounds is refused just when the later one, as it is compared with the earlier one, is the same. -/
theorem SchemaBuilder.field_least (earlier later : List Value) :
    SchemaBuilder.field { name := .text "s" } .bare .default (.text "p") (.value .absent)
        [.rule ⟨"min", .set false earlier⟩, .rule ⟨"min", .set false later⟩] [] =
      if (Value.set false later).same (.set false earlier) = true then
        .error (.refused (.declaredTwice "min" (.set false later) { schema := .text "s", field := some (.text "p") }))
      else .ok { name := .text "s", fields := [(.text "p", .scalar [.least earlier, .least later] .absent)] } := by
  have conflicts (site : Site) : BoundRule.checkConflicts site [] [.least earlier, .least later] =
      if (Value.set false later).same (.set false earlier) = true then
        .error (.refused (.declaredTwice "min" (.set false later) site)) else .ok () := by
    have bounds : BoundRule.checkBounds (.least earlier) (.least later) site = .ok () := rfl
    by_cases twice : (Value.set false later).same (.set false earlier) = true <;>
      simp [BoundRule.checkConflicts, BoundRule.checkAgainst, BoundRule.checkPair, BoundRule.name, bounds, twice]
  change Except.map _ (Except.bind (Except.bind (BoundRule.checkConflicts _ [] [.least earlier, .least later]) _) _) = _
  rw [conflicts]
  by_cases twice : (Value.set false later).same (.set false earlier) = true
  · rw [if_pos twice, if_pos twice]
    rfl
  · rw [if_neg twice, if_neg twice]
    rfl

/-- A violation with a point, as a value. -/
abbrev Violation.ofPoint (k : MappingKind) (point : List (Value × Value)) : Value :=
  (Violation.report "bad" [(.text "at", .mapping k point)] []).toObject

/-- Two violations that differ in the order of coordinates that are ordered. -/
abbrev Violation.ordered : List Value :=
  [ofPoint .ordered [(.text "x", .int 1), (.text "y", .int 2)], ofPoint .ordered [(.text "y", .int 2), (.text "x", .int 1)]]

/-- A violation that equals both of those, and one that equals neither. -/
abbrev Violation.unordered : List Value :=
  [ofPoint .plain [(.text "x", .int 1), (.text "y", .int 2)], (Violation.report "worse" [] []).toObject]

/-- Equality of sets of violations may go one way only, and then a field is accepted with two bounds in one order and
refused in the other. -/
theorem order_decides_between_uneven_bounds :
    (∃ b, SchemaBuilder.field { name := .text "s" } .bare .default (.text "p") (.value .absent)
      [.rule ⟨"min", .set false Violation.ordered⟩, .rule ⟨"min", .set false Violation.unordered⟩] [] = .ok b) ∧
    ∃ r, SchemaBuilder.field { name := .text "s" } .bare .default (.text "p") (.value .absent)
      [.rule ⟨"min", .set false Violation.unordered⟩, .rule ⟨"min", .set false Violation.ordered⟩] [] = .error (.refused r) ∧
      r.kind = .conflictingConstraint := by
  have apart : (Value.set false Violation.unordered).same (.set false Violation.ordered) = false := by
    simp [Value.same_set, Violation.same_toObject, Violation.report]
  have same : (Value.set false Violation.ordered).same (.set false Violation.unordered) = true := by
    rw [Value.same_set]
    simp only [List.all_cons, List.any_cons, List.all_nil, List.any_nil, Violation.same_toObject]
    simp [Violation.report, Violation.messageKey, Value.lookup?, Value.same, Value.sameUndefined, Value.eq, Value.eqEntriesIn,
      Value.scalarEq, Value.magnitude?, Value.asText?, Magnitude.same, Magnitude.ofInt, Path.toObject, Value.eqItems]
  constructor
  · exact ⟨_, (SchemaBuilder.field_least ..).trans (if_neg (by simp [apart]))⟩
  · exact ⟨_, (SchemaBuilder.field_least ..).trans (if_pos same), rfl⟩

end Conform
