import Conform.Proofs.Failing
import Conform.Proofs.Inventory

/-!
The levels of nodes. A node holds others: what a wrapper contains, the keys of a mapping, and what the cases of a
choice carry. Each of them was compiled from a shape of its own by the same workshop, so what compiling
guarantees of a node it guarantees of every level in it (`Workshop.Formed`).
-/

namespace Conform

mutual

/-- The node and all nodes in it. -/
def Node.levels : Node → List Node
  | .scalar rules type => [.scalar rules type]
  | .wrapper w rules inner keys => .wrapper w rules inner keys :: (Node.innerLevels inner ++ Node.innerLevels keys)
  | .nested rules target => [.nested rules target]
  | .variants rules cases tag => .variants rules cases tag :: Node.caseLevels cases

def Node.innerLevels : Option Node → List Node
  | none => []
  | some n => n.levels

def Node.caseLevels : List (Value × Option Node) → List Node
  | [] => []
  | (_, n) :: rest => Node.innerLevels n ++ Node.caseLevels rest

end

theorem Node.self_mem_levels (n : Node) : n ∈ n.levels := by
  cases n <;> simp [levels]

theorem Node.mem_caseLevels {m : Node} (cases : List (Value × Option Node)) :
    m ∈ caseLevels cases ↔ ∃ name n, (name, n) ∈ cases ∧ m ∈ innerLevels n := by
  induction cases with
  | nil => simp [caseLevels]
  | cons entry rest ih =>
    obtain ⟨name, n⟩ := entry
    simp only [caseLevels, List.mem_append, ih, List.mem_cons, Prod.mk.injEq]
    constructor
    · rintro (hm | ⟨name', n', hn', hm⟩)
      · exact ⟨name, n, .inl ⟨rfl, rfl⟩, hm⟩
      · exact ⟨name', n', .inr hn', hm⟩
    · rintro ⟨name', n', ⟨rfl, rfl⟩ | hn', hm⟩
      · exact .inl hm
      · exact .inr ⟨name', n', hn', hm⟩

/-! ### The rules of a level -/

namespace BoundRule

/-- A rule can stand behind an earlier one of its level. -/
structure Compatible (earlier rule : BoundRule) : Prop where
  parameters : rule.name = earlier.name → rule.param.same earlier.param = false
  exclusive : rule.name = earlier.name → rule.function.exclusive = false ∧ earlier.function.exclusive = false
  bounds : ∀ lower upper, boundPair earlier rule = some (lower, upper) → lower.param.gt upper.param = .ok false

theorem Compatible.of_checkPair {earlier rule : BoundRule} {site : Site} {u : Unit} (h : checkPair earlier rule site = .ok u)
    (alike : rule.name = earlier.name → rule.function = earlier.function) : Compatible earlier rule := by
  unfold checkPair at h
  split at h
  · cases h
  next different =>
  split at h
  · cases h
  next shared =>
  refine ⟨fun name => ?_, fun name => ?_, fun lower upper pair => ?_⟩
  · simpa using fun same => different ⟨name, same⟩
  · -- The check asks the later rule only; both have the function of their name.
    have alone : rule.function.exclusive = false := by simpa using fun exclusive => shared ⟨name, exclusive⟩
    exact ⟨alone, alike name ▸ alone⟩
  · unfold checkBounds at h
    rw [pair] at h
    dsimp only at h
    split at h
    · next hgt => exact hgt
    · cases h
    · split at h <;> cases h

theorem checkAgainst_ok {rule : BoundRule} {site : Site} : ∀ {before : List BoundRule}, rule.checkAgainst site before = .ok () →
    ∀ earlier ∈ before, checkPair earlier rule site = .ok ()
  | [], _ => by simp
  | earlier :: rest, h => by
    rw [checkAgainst] at h
    split at h
    · cases h
    · next hpair =>
      intro e he
      rcases List.mem_cons.mp he with rfl | he
      · exact hpair
      · exact checkAgainst_ok h e he

/-- Rules without conflicts pass the check of each pair, in their order. -/
theorem checkConflicts_ok {site : Site} : ∀ {rules before : List BoundRule}, checkConflicts site before rules = .ok () →
    (rules.Pairwise fun earlier rule => checkPair earlier rule site = .ok ()) ∧
      ∀ earlier ∈ before, ∀ rule ∈ rules, checkPair earlier rule site = .ok ()
  | [], _, _ => ⟨.nil, by simp⟩
  | rule :: rest, before, h => by
    rw [checkConflicts] at h
    split at h
    · cases h
    next hrule =>
    obtain ⟨pairs, later⟩ := checkConflicts_ok h
    refine ⟨List.pairwise_cons.mpr ⟨later rule (by simp), pairs⟩, fun earlier he r hr => ?_⟩
    rcases List.mem_cons.mp hr with rfl | hr
    · exact checkAgainst_ok hrule earlier he
    · exact later earlier (List.mem_append_left _ he) r hr

end BoundRule

namespace Workshop
variable {w : Workshop} {site : Site} {s : Shape} {n : Node}

/-- A rule as it is bound on a shape: its function is the one of its name, applies to the shape, and finds nothing
wrong with the parameter. -/
structure Fits (w : Workshop) (s : Shape) (r : BoundRule) : Prop where
  found : w.table.find? r.name = some r.function
  applies : r.function.appliesTo.contains s.kind = true
  passes : ∀ check, r.function.checkParam = some check → check.run w.host r.param s = .ok none

theorem find?_of_lookUp {name : String} {f : ConstraintFunction} (h : w.lookUp name site = .ok f) :
    w.table.find? name = some f := by
  unfold lookUp at h
  split at h
  · next found =>
    cases h
    exact found
  · cases h

theorem bindRule_fits {rule : Rule} {r : BoundRule} (h : w.bindRule s site rule = .ok r) : w.Fits s r := by
  obtain ⟨hf, applies, -, passes⟩ := bindRule_cases h
  have found := find?_of_lookUp hf
  rw [← name_of_lookUp hf] at found
  exact ⟨found, applies, passes⟩

/-- Binding the rules of a level adds rules that fit it, and no two of all of them are refused. -/
theorem bindRules_ok {existing all : List BoundRule} (h : w.bindRules s site existing = .ok all) :
    ∃ bound, all = existing ++ bound ∧ (∀ r ∈ bound, w.Fits s r) ∧
      all.Pairwise fun earlier rule => BoundRule.checkPair earlier rule site = .ok () := by
  unfold bindRules at h
  obtain ⟨bound, hbound, h⟩ := Except.bind_eq_ok.mp h
  obtain ⟨u, hu, h⟩ := Except.bind_eq_ok.mp h
  cases h
  refine ⟨bound, rfl, fun r hr => ?_, (BoundRule.checkConflicts_ok hu).1⟩
  obtain ⟨rule, -, hr⟩ := mem_mapM hbound hr
  exact bindRule_fits hr

/-- Rules that one table knows are compatible when no two of them are refused. -/
theorem compatible_of_pairs {t : FunctionTable} {rules : List BoundRule} (known : ∀ r ∈ rules, t.find? r.name = some r.function)
    (pairs : rules.Pairwise fun earlier rule => BoundRule.checkPair earlier rule site = .ok ()) :
    rules.Pairwise BoundRule.Compatible := by
  refine pairs.imp_of_mem fun {earlier rule} he hr pair => .of_checkPair pair fun name => ?_
  exact Option.some.inj ((known rule hr).symm.trans (name ▸ known earlier he))

/-! ### Levels that can be compiled -/

/-- What a level holds besides its rules. -/
inductive Fills (w : Workshop) : Node → Prop where
  | scalar {rules type} (ht : type = .absent ∨ ∃ c attributes, type = .cls c attributes) : Fills w (.scalar rules type)
  | wrapper {wr rules inner keys} : Fills w (.wrapper wr rules (some inner) keys)
  | schema {rules u} : Fills w (.nested rules (.schema u))
  | structure {rules c attributes}
      (known : (w.host.schemaOf? (.cls c attributes)).isSome = true ∨ ∃ own, w.targetType = .cls c own) :
      Fills w (.nested rules (.value (.cls c attributes)))
  | variants {rules cases tag} (some : cases ≠ []) (names : ∀ e ∈ cases, ∃ name, e.1 = .text name) :
      Fills w (.variants rules cases tag)

/-- A level that was compiled from a shape: it is filled as its kind asks, its rules fit the shape, and they are
compatible. -/
structure Formed (w : Workshop) (n : Node) : Prop where
  fills : w.Fills n
  rules : ∃ site s, w.compile site s = .ok n ∧ s.kind = n.kind ∧ ∀ r ∈ n.rules, w.Fits s r
  compatible : n.rules.Pairwise BoundRule.Compatible

theorem checkTarget_fills {target : Target} {rules : List BoundRule} {u : Unit} (h : w.checkTarget target site = .ok u) :
    w.Fills (.nested rules target) := by
  unfold checkTarget at h
  split at h
  · exact .schema
  · cases h
  · next v _ =>
    cases v with
    | cls c attributes =>
      dsimp only at h
      split at h
      · next known =>
        rw [Bool.true_and, Bool.or_eq_true] at known
        refine .structure (known.symm.imp_right fun own => ?_)
        unfold isTargetType at own
        split at own
        · next d attributes' heq htarget =>
          cases heq
          rw [beq_iff_eq.mp own]
          exact ⟨_, htarget⟩
        · cases own
      · cases h
    | _ => cases h

/-- Compiled cases are named by texts, and none is lost. -/
theorem compileCases_names : ∀ {site : Site} {cases : List (Value × Payload)} {done all : List (Value × Option Node)},
    w.compileCases site cases done = .ok all → (∀ e ∈ done, ∃ name, e.1 = .text name) →
      (∀ e ∈ all, ∃ name, e.1 = .text name) ∧ (cases ≠ [] ∨ done ≠ [] → all ≠ [])
  | _, [], done, all, h, texts => by
    rw [compileCases] at h
    cases h
    exact ⟨texts, by simp⟩
  | site, (name, payload) :: rest, done, all, h, texts => by
    rw [compileCases] at h
    obtain ⟨node, -, h⟩ := Except.bind_eq_ok.mp h
    have nonempty : Value.assign (.text name.str) node done ≠ [] := by
      cases done with
      | nil => simp [Value.assign]
      | cons e done =>
        unfold Value.assign
        split <;> simp
    obtain ⟨texts, some⟩ := compileCases_names h (Value.assign_texts texts)
    exact ⟨texts, fun _ => some (.inr nonempty)⟩

theorem compile_formed (h : w.compile site s = .ok n) : w.Formed n := by
  obtain ⟨kind, rules, type, inner, keys, target, cases, tag⟩ := s
  obtain ⟨bound, hbound, shaped⟩ := compile_cases h
  obtain ⟨own, rfl, fits, pairs⟩ := bindRules_ok hbound
  have compatible := compatible_of_pairs (fun r hr => (fits r hr).found) pairs
  obtain ⟨rfl, scalar, rfl⟩ | ⟨wr, rfl, i, k, -, -, rfl⟩ | ⟨rfl, target, rfl⟩ | ⟨rfl, all, done, -, some, hdone, rfl⟩ := shaped
  · exact ⟨.scalar (checkScalarType_class scalar), ⟨site, _, h, rfl, fits⟩, compatible⟩
  · exact ⟨.wrapper, ⟨site, _, h, rfl, fits⟩, compatible⟩
  · exact ⟨checkTarget_fills target, ⟨site, _, h, rfl, fits⟩, compatible⟩
  · obtain ⟨names, nonempty⟩ := compileCases_names hdone (by simp)
    exact ⟨.variants (nonempty (.inl some)) names, ⟨site, _, h, rfl, fits⟩, compatible⟩

theorem compile_bare_scalar (site : Site) {type : Value} (ht : type = .absent ∨ ∃ c attributes, type = .cls c attributes) :
    w.compile site (.scalar type []) = .ok (.scalar [] type) := by
  obtain rfl | ⟨c, attributes, rfl⟩ := ht <;> (rw [Shape.scalar, compile]; rfl)

theorem compile_bare_nested {target : Target} (h : w.checkTarget target site = .ok ()) :
    w.compile site (.nested target []) = .ok (.nested [] target) := by
  rw [Shape.nested, compile]
  change (w.checkTarget target site >>= fun _ => Except.ok (Node.nested [] target)) = _
  rw [h]
  rfl

mutual

/-- Every level of a compiled node was compiled. -/
theorem compile_levels : ∀ (site : Site) (s : Shape) {n : Node}, w.compile site s = .ok n → ∀ m ∈ n.levels, w.Formed m
  | site, .mk kind rules type inner keys target cases tag, n, h => by
    have own := compile_formed h
    obtain ⟨bound, -, shaped⟩ := compile_cases h
    intro m hm
    obtain ⟨-, -, rfl⟩ | ⟨wr, -, i, k, hi, hk, rfl⟩ | ⟨-, -, rfl⟩ | ⟨-, all, done, rfl, -, hdone, rfl⟩ := shaped
    · cases List.mem_singleton.mp hm
      exact own
    · rw [Node.levels] at hm
      rcases List.mem_cons.mp hm with rfl | hm
      · exact own
      · rcases List.mem_append.mp hm with hm | hm
        · exact compileInner_levels site inner hi m hm
        · exact compileKeys_levels site keys hk m hm
    · cases List.mem_singleton.mp hm
      exact own
    · rw [Node.levels] at hm
      rcases List.mem_cons.mp hm with rfl | hm
      · exact own
      · exact compileCases_levels site all hdone (by simp [Node.caseLevels]) m hm

theorem compileInner_levels : ∀ (site : Site) (inner : Option Shape) {n : Node}, w.compileInner site inner = .ok n →
    ∀ m ∈ n.levels, w.Formed m
  | site, none, n, h => by
    rw [compileInner] at h
    cases h
    intro m hm
    cases List.mem_singleton.mp hm
    exact compile_formed (compile_bare_scalar site (.inl rfl))
  | site, some s, n, h => by
    rw [compileInner] at h
    exact compile_levels site s h

theorem compileKeys_levels : ∀ (site : Site) (keys : Option Shape) {k : Option Node}, w.compileKeys site keys = .ok k →
    ∀ m ∈ Node.innerLevels k, w.Formed m
  | _, none, k, h => by
    rw [compileKeys] at h
    cases h
    simp [Node.innerLevels]
  | site, some s, k, h => by
    rw [compileKeys] at h
    obtain ⟨n, hn, h⟩ := Except.bind_eq_ok.mp h
    cases h
    exact compile_levels site s hn

theorem compileCases_levels : ∀ (site : Site) (cases : List (Value × Payload)) {done all : List (Value × Option Node)},
    w.compileCases site cases done = .ok all → (∀ m ∈ Node.caseLevels done, w.Formed m) →
      ∀ m ∈ Node.caseLevels all, w.Formed m
  | _, [], done, all, h, hd => by
    rw [compileCases] at h
    cases h
    exact hd
  | site, (name, payload) :: rest, done, all, h, hd => by
    rw [compileCases] at h
    obtain ⟨node, hnode, h⟩ := Except.bind_eq_ok.mp h
    -- A case that is named twice stays where it was, with what it carries the second time.
    refine compileCases_levels site rest h fun m hm => ?_
    obtain ⟨k, n, hn, inside⟩ := (Node.mem_caseLevels _).mp hm
    rcases Value.mem_assign hn with hn | ⟨rfl, -⟩
    · exact hd m ((Node.mem_caseLevels _).mpr ⟨k, n, hn, inside⟩)
    · exact compilePayload_levels _ payload hnode m inside

theorem compilePayload_levels : ∀ (site : Site) (payload : Payload) {n : Option Node}, w.compilePayload site payload = .ok n →
    ∀ m ∈ Node.innerLevels n, w.Formed m
  | site, .shape s, n, h => by
    rw [compilePayload] at h
    obtain ⟨n, hn, h⟩ := Except.bind_eq_ok.mp h
    cases h
    exact compile_levels site s hn
  | site, .target t, n, h => by
    obtain ⟨-, rfl⟩ | ⟨v, rfl, leaf, rfl⟩ | ⟨-, -, checked, rfl⟩ := compilePayload_target h
    · simp [Node.innerLevels]
    · intro m hm
      cases List.mem_singleton.mp hm
      exact compile_formed (compile_bare_scalar site (.inr (isScalarClass_class leaf)))
    · intro m hm
      cases List.mem_singleton.mp hm
      exact compile_formed (compile_bare_nested checked)

end

/-- A node whose levels are well formed has a description. -/
theorem describe_ok : ∀ {n : Node}, (∀ m ∈ n.levels, w.Formed m) → ∃ d, n.describe = .ok d
  | .scalar rules type, formed => by
    obtain ⟨⟨ht⟩, -, -⟩ := formed _ (Node.self_mem_levels _)
    obtain rfl | ⟨c, attributes, rfl⟩ := ht
    · exact ⟨_, rfl⟩
    · unfold Node.describe
      split <;> exact ⟨_, rfl⟩
  | .wrapper wr rules none keys, _ => ⟨_, rfl⟩
  | .wrapper wr rules (some inner) keys, formed => by
    obtain ⟨d, hd⟩ := describe_ok fun m (hm : m ∈ inner.levels) => formed m (by simp [Node.levels, Node.innerLevels, hm])
    exact ⟨_, by rw [Node.describe, hd]; rfl⟩
  | .nested rules target, _ => ⟨_, rfl⟩
  | .variants rules cases tag, formed => by
    obtain ⟨fills, -, -⟩ := formed _ (Node.self_mem_levels _)
    cases fills with
    | variants _ names =>
      have texts : ∀ x ∈ cases.map Prod.fst, ∃ name, x = .text name := by
        intro x hx
        obtain ⟨e, he, rfl⟩ := List.mem_map.mp hx
        exact names e he
      obtain ⟨t, ht⟩ := joinTexts_ok " | " texts
      exact ⟨_, by rw [Node.describe, ht]; rfl⟩

end Workshop

/-! ### Declarations -/

namespace SchemaBuilder
variable {b b' : SchemaBuilder} {h : Host} {t : FunctionTable} {rules : List RuleSpelling} {named : List (String × Value)}

/-- A declared field has a new name and a compiled node. -/
theorem field_cases {name : Value} {shape : ShapeSpelling} (hf : b.field h t name shape rules named = .ok b') :
    (∀ e ∈ b.fields, e.1.eq name = false) ∧ ∃ site s n, (b.workshop h t).compile site s = .ok n ∧
      b' = { b with fields := b.fields ++ [(name, n)] } := by
  rw [field_eq] at hf
  split at hf
  · cases hf
  next fresh =>
  obtain ⟨s, -, hf⟩ := Except.bind_eq_ok.mp hf
  obtain ⟨declared, -, hf⟩ := Except.bind_eq_ok.mp hf
  obtain ⟨n, hn, rfl⟩ := Except.map_eq_ok.mp hf
  obtain ⟨placed, -, hn⟩ := Except.bind_eq_ok.mp hn
  refine ⟨fun e he => ?_, _, placed, n, hn, rfl⟩
  rw [List.any_eq_true] at fresh
  exact Bool.eq_false_iff.mpr fun same => fresh ⟨e, he, same⟩

theorem compileShape_cases {shape : ShapeSpelling} {n : Node} (hc : b.compileShape h t shape = .ok n) :
    ∃ site s, (b.workshop h t).compile site s = .ok n := by
  unfold compileShape at hc
  obtain ⟨s, -, hc⟩ := Except.bind_eq_ok.mp hc
  exact ⟨_, s, hc⟩

end SchemaBuilder
end Conform
