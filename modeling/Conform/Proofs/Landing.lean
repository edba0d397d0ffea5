import Conform.Proofs.Levels
import Mathlib.Data.List.Forall2

/-!
Where the rules of a field land. The levels of a shape that can take in a rule are its own and those inside it, as long
as they are wrappers (`Shape.chain`); a rule lands at the first of them that its function applies to
(`Shape.landing`). A field is built from its shape level by level (`Shape.Builds`): each level keeps its own rules, the
levels of the chain have those that landed there after them, and nothing else changes.
-/

namespace Conform

namespace Shape

/-- The kinds of the levels that can take in a rule of a field, from the outermost one inwards. A wrapper without a
shape inside contains a scalar. -/
def chain : Shape → List FieldKind
  | .mk kind _ _ inner _ _ _ _ =>
    kind :: if kind.isWrapper then (match inner with | some s => s.chain | none => [.scalar]) else []

/-- The position in the chain where a rule lands: the first level that its function applies to. -/
def landing (t : FunctionTable) (s : Shape) (rule : Rule) : Option Nat :=
  (t.find? rule.name).bind fun f => s.chain.findIdx? f.appliesTo.contains

/-- A shape as it is spelled out with classes for the types of scalars, a shape inside every wrapper, and choices whose
cases have different texts for names. -/
inductive Crafted : Shape → Prop where
  | scalar {type rules} (ht : type = .absent ∨ ∃ c attributes, type = .cls c attributes) : Crafted (.scalar type rules)
  | wrapper {wr inner keys rules} (hi : Crafted inner) (hk : ∀ k, keys = some k → Crafted k) :
      Crafted (.wrapper wr (some inner) keys rules)
  | nested {target rules} : Crafted (.nested target rules)
  | variants {texts : List String} {cases tag rules} (names : cases.map Prod.fst = texts.map Value.text)
      (nodup : texts.Nodup) (hc : ∀ name s, (name, Payload.shape s) ∈ cases → Crafted s) : Crafted (.variants cases tag rules)

end Shape

/-- Rules as they are bound: each has the function of its name, and its parameter resolved. -/
def Workshop.Binds (w : Workshop) (rules : List Rule) (bound : List BoundRule) : Prop :=
  List.Forall₂ (fun rule b => w.table.find? rule.name = some b.function ∧ w.resolve b.function rule.param = .ok b.param)
    rules bound

mutual

/-- A node that is built from a shape, where `more` are the rules that each level of the chain has after its own. -/
inductive Shape.Builds (w : Workshop) : (Nat → List Rule) → Shape → Node → Prop where
  | scalar {more rules type inner keys target cases tag bound} (binds : w.Binds (rules ++ more 0) bound) :
      Shape.Builds w more (.mk .scalar rules type inner keys target cases tag) (.scalar bound type)
  | wrapper (wr : Wrapper) {more rules type inner keys target cases tag bound n k}
      (binds : w.Binds (rules ++ more 0) bound) (hi : Shape.BuildsInner w (fun i => more (i + 1)) inner n)
      (hk : Shape.BuildsKeys w keys k) :
      Shape.Builds w more (.mk wr.kind rules type inner keys target cases tag) (.wrapper wr bound (some n) k)
  | nested {more rules type inner keys target cases tag bound} (binds : w.Binds (rules ++ more 0) bound) :
      Shape.Builds w more (.mk .nested rules type inner keys target cases tag) (.nested bound target)
  | variants {more rules type inner keys target cases tag bound nodes} (binds : w.Binds (rules ++ more 0) bound)
      (hc : Shape.BuildsCases w cases nodes) :
      Shape.Builds w more (.mk .enum rules type inner keys target (some cases) tag) (.variants bound nodes tag)

/-- What is inside a wrapper belongs to the chain. -/
inductive Shape.BuildsInner (w : Workshop) : (Nat → List Rule) → Option Shape → Node → Prop where
  | none {more bound} (binds : w.Binds (more 0) bound) : Shape.BuildsInner w more none (.scalar bound .absent)
  | some {more s n} (hs : Shape.Builds w more s n) : Shape.BuildsInner w more (some s) n

/-- The keys of a mapping have no rules but their own. -/
inductive Shape.BuildsKeys (w : Workshop) : Option Shape → Option Node → Prop where
  | none : Shape.BuildsKeys w none none
  | some {s n} (hs : Shape.Builds w (fun _ => []) s n) : Shape.BuildsKeys w (some s) (some n)

/-- The cases of a choice have the names that they were declared with, in their order. -/
inductive Shape.BuildsCases (w : Workshop) : List (Value × Payload) → List (Value × Option Node) → Prop where
  | nil : Shape.BuildsCases w [] []
  | cons {name payload n rest nodes} (hp : Shape.BuildsPayload w payload n) (hr : Shape.BuildsCases w rest nodes) :
      Shape.BuildsCases w ((name, payload) :: rest) ((name, n) :: nodes)

/-- What a case carries has no rules but its own. -/
inductive Shape.BuildsPayload (w : Workshop) : Payload → Option Node → Prop where
  | shape {s n} (hs : Shape.Builds w (fun _ => []) s n) : Shape.BuildsPayload w (.shape s) (some n)
  | unit : Shape.BuildsPayload w (.target (.value .absent)) none
  | leaf {v} (hv : w.isScalarClass (.value v) = true) : Shape.BuildsPayload w (.target (.value v)) (some (.scalar [] v))
  | structure {t} (present : t.isAbsent = false) (ht : w.isScalarClass t = false) :
      Shape.BuildsPayload w (.target t) (some (.nested [] t))

end

/-! ### Placing one rule -/

namespace Shape
variable {w : Workshop} {kinds : List FieldKind} {rule : Rule}

theorem kind_of_chain : ∀ {s s' : Shape}, s'.chain = s.chain → s'.kind = s.kind
  | .mk .., .mk .., h => by
    rw [chain.eq_def, chain.eq_def] at h
    exact (List.cons.inj h).1

/-- A rule that is placed leaves the kinds of the chain as they are. -/
theorem Places.chain_eq {s placed : Shape} (h : Places kinds rule s placed) : placed.chain = s.chain := by
  induction h with
  | here => rw [chain.eq_def, chain.eq_def]
  | inside _ _ _ ih =>
    rw [chain.eq_def, chain.eq_def]
    dsimp only
    rw [ih]
  | fresh =>
    rw [chain.eq_def, chain.eq_def]
    rfl

/-- A rule can be placed as long as some level of the chain is of one of its kinds. -/
theorem place_eq_none (rule : Rule) {s : Shape} :
    s.place kinds rule = none ↔ s.chain.findIdx? kinds.contains = none := by
  cases s with
  | mk kind rules type inner keys target cases tag =>
    rw [place.eq_def, chain.eq_def, List.findIdx?_cons]
    dsimp only
    by_cases here : kinds.contains kind = true
    · rw [if_pos here, if_pos here]
      simp
    rw [if_neg here, if_neg here, Option.map_eq_none_iff]
    by_cases wrapper : kind.isWrapper = true
    · rw [if_pos wrapper, if_pos wrapper, Option.map_eq_none_iff]
      cases inner with
      | some s => exact place_eq_none rule
      | none => by_cases scalar : FieldKind.scalar ∈ kinds <;> simp [List.findIdx?_cons, scalar]
    · simp [if_neg wrapper]

theorem Builds.of_scalar {more : Nat → List Rule} {type : Value} {rules : List Rule} {n : Node}
    (builds : Builds w more (Shape.scalar type rules) n) : ∃ bound, w.Binds (rules ++ more 0) bound ∧ n = .scalar bound type := by
  rw [Shape.scalar] at builds
  generalize hk : FieldKind.scalar = kind at builds
  cases builds with
  | scalar binds => exact ⟨_, binds, rfl⟩
  | wrapper wr => cases wr <;> cases hk
  | nested => cases hk

theorem landing_of_chain {t : FunctionTable} {s s' : Shape} (h : s'.chain = s.chain) : s'.landing t = s.landing t := by
  funext r
  rw [landing, landing, h]

/-- A rule of a known name has a level to land at when it can be placed. -/
theorem landing_isSome {t : FunctionTable} {s placed : Shape} {f : ConstraintFunction} (found : t.find? rule.name = some f)
    (h : Places f.appliesTo rule s placed) : ∃ i, s.landing t rule = some i := by
  rw [landing, found, Option.bind_some, ← Option.ne_none_iff_exists', ne_eq, ← place_eq_none rule, place_iff.mpr h]
  simp

/-- A node that is built from a shape where a rule was placed is built from the shape itself, with the rule before the
others at the first level of its kinds. -/
theorem Places.builds {s placed : Shape} (h : Places kinds rule s placed) : ∀ {more : Nat → List Rule} {n : Node},
    Builds w more placed n → ∃ i, s.chain.findIdx? kinds.contains = some i ∧
      Builds w (Function.update more i (rule :: more i)) s n := by
  -- Inside, the positions of the chain are counted from one level further in.
  have shifted (more : Nat → List Rule) (i : Nat) : (fun j => Function.update more (i + 1) (rule :: more (i + 1)) (j + 1))
      = Function.update (fun j => more (j + 1)) i (rule :: more (i + 1)) := by
    funext j
    simp [Function.update_apply]
  induction h with
  | here takes =>
    intro more n builds
    refine ⟨0, by rw [chain.eq_def, List.findIdx?_cons, if_pos takes], ?_⟩
    cases builds with
    | scalar binds => exact .scalar (by simpa using binds)
    | wrapper wr binds hi hk => exact .wrapper wr (by simpa using binds) hi hk
    | nested binds => exact .nested (by simpa using binds)
    | variants binds hc => exact .variants (by simpa using binds) hc
  | inside passes wrapper _ ih =>
    intro more n builds
    cases builds with
    | scalar binds => cases wrapper
    | nested binds => cases wrapper
    | variants binds hc => cases wrapper
    | wrapper wr binds hi hk =>
      rcases hi with _ | hs
      obtain ⟨i, first, inside⟩ := ih hs
      refine ⟨i + 1, ?_, .wrapper wr (by simpa using binds) (.some ?_) hk⟩
      · rw [chain.eq_def, List.findIdx?_cons, if_neg passes]
        dsimp only
        rw [if_pos wrapper, first]
        rfl
      · rw [shifted]
        exact inside
  | fresh passes wrapper takes =>
    intro more n builds
    cases builds with
    | scalar binds => cases wrapper
    | nested binds => cases wrapper
    | variants binds hc => cases wrapper
    | wrapper wr binds hi hk =>
      rcases hi with _ | hs
      obtain ⟨bound, inside, rfl⟩ := hs.of_scalar
      refine ⟨1, ?_, .wrapper wr (by simpa using binds) (.none (by simpa using inside)) hk⟩
      rw [chain.eq_def, List.findIdx?_cons, if_neg passes]
      dsimp only
      rw [if_pos wrapper, List.findIdx?_cons, if_pos takes]
      rfl

/-! ### Crafted shapes -/

/-- A crafted shape stays crafted, and keeps its description, when a rule is placed. -/
theorem Crafted.places {s : Shape} (crafted : s.Crafted) : ∀ {placed : Shape}, Places kinds rule s placed →
    placed.Crafted ∧ placed.describe = s.describe := by
  induction crafted with
  | scalar ht =>
    rintro placed (_ | ⟨_, wrapper, _⟩ | ⟨_, wrapper, _⟩)
    · exact ⟨.scalar ht, rfl⟩
    · cases wrapper
  | @wrapper wr inner keys rules hi hk ih =>
    rintro placed (_ | ⟨_, _, inside⟩)
    · exact ⟨.wrapper hi hk, by cases wr <;> simp [Shape.wrapper, describe, Wrapper.kind]⟩
    · obtain ⟨crafted, described⟩ := ih inside
      exact ⟨.wrapper crafted hk, by cases wr <;> simp [Shape.wrapper, describe, Wrapper.kind, described]⟩
  | nested =>
    rintro placed (_ | ⟨_, wrapper, _⟩ | ⟨_, wrapper, _⟩)
    · exact ⟨.nested, rfl⟩
    · cases wrapper
  | variants names nodup hc =>
    rintro placed (_ | ⟨_, wrapper, _⟩ | ⟨_, wrapper, _⟩)
    · exact ⟨.variants names nodup hc, rfl⟩
    · cases wrapper

theorem Crafted.describe_ok {s : Shape} (crafted : s.Crafted) : ∃ d, s.describe = .ok d := by
  induction crafted with
  | scalar ht =>
    obtain rfl | ⟨c, attributes, rfl⟩ := ht <;> exact ⟨_, rfl⟩
  | @wrapper wr inner keys rules hi hk ih =>
    obtain ⟨d, hd⟩ := ih
    refine ⟨wr.kind.name ++ " of " ++ d, ?_⟩
    cases wr <;> simp [Shape.wrapper, Wrapper.kind, describe, hd, Except.map]
  | nested => exact ⟨_, rfl⟩
  | @variants texts cases tag rules names nodup hc =>
    have named : ∀ x ∈ cases.map Prod.fst, ∃ s, x = .text s := by
      rw [names]
      exact List.forall_mem_map.mpr fun s _ => ⟨s, rfl⟩
    obtain ⟨t, ht⟩ := joinTexts_ok ", " named
    exact ⟨"one of " ++ t, by simp [Shape.variants, describe, ht, Except.map]⟩

end Shape

/-! ### Compiling -/

namespace Workshop
variable {w : Workshop} {site : Site}

theorem binds_of_bindRules {s : Shape} {bound : List BoundRule} (h : w.bindRules s site [] = .ok bound) :
    w.Binds (s.rules ++ []) bound := by
  unfold bindRules at h
  obtain ⟨own, hown, h⟩ := Except.bind_eq_ok.mp h
  obtain ⟨u, -, h⟩ := Except.bind_eq_ok.mp h
  cases h
  rw [List.append_nil]
  refine (forall₂_of_mapM hown).imp fun rule b hb => ?_
  obtain ⟨found, -, resolved, -⟩ := bindRule_cases hb
  exact ⟨find?_of_lookUp found, resolved⟩

theorem compilePayload_builds {t : Target} {n : Option Node} (h : w.compilePayload site (.target t) = .ok n) :
    Shape.BuildsPayload w (.target t) n := by
  obtain ⟨rfl, rfl⟩ | ⟨v, rfl, leaf, rfl⟩ | ⟨present, other, -, rfl⟩ := compilePayload_target h
  · exact .unit
  · exact .leaf leaf
  · exact .structure present other

/-- A crafted shape is compiled to a node that is built from it, with the rules of the shape and no others. -/
theorem compile_builds {s : Shape} (crafted : s.Crafted) : ∀ {site : Site} {n : Node}, w.compile site s = .ok n →
    s.Builds w (fun _ => []) n := by
  induction crafted with
  | scalar ht =>
    intro site n h
    obtain ⟨bound, hbound, ⟨-, -, rfl⟩ | ⟨wr, other, -⟩ | ⟨other, -⟩ | ⟨other, -⟩⟩ := compile_cases h
    · exact .scalar (binds_of_bindRules hbound)
    · cases wr <;> cases other
    all_goals cases other
  | @wrapper wr inner keys rules hi hk ihi ihk =>
    intro site n h
    obtain ⟨bound, hbound, ⟨other, -⟩ | ⟨wr', same, i, k, hi, hk, rfl⟩ | ⟨other, -⟩ | ⟨other, -⟩⟩ := compile_cases h
    · cases wr <;> cases other
    · have wr_eq : wr' = wr := by cases wr <;> cases wr' <;> first | rfl | cases same
      subst wr_eq
      rw [compileInner] at hi
      refine .wrapper wr' (binds_of_bindRules hbound) (.some (ihi hi)) ?_
      cases keys with
      | none =>
        rw [compileKeys] at hk
        cases hk
        exact .none
      | some s =>
        rw [compileKeys] at hk
        obtain ⟨m, hm, hk⟩ := Except.bind_eq_ok.mp hk
        cases hk
        exact .some (ihk s rfl hm)
    all_goals cases wr <;> cases other
  | nested =>
    intro site n h
    obtain ⟨bound, hbound, ⟨other, -⟩ | ⟨wr, other, -⟩ | ⟨-, -, rfl⟩ | ⟨other, -⟩⟩ := compile_cases h
    · cases other
    · cases wr <;> cases other
    · exact .nested (binds_of_bindRules hbound)
    · cases other
  | @variants texts cases tag rules names nodup hc ih =>
    intro site n h
    obtain ⟨bound, hbound, ⟨other, -⟩ | ⟨wr, other, -⟩ | ⟨other, -⟩ | ⟨-, all, done, same, -, hdone, rfl⟩⟩ := compile_cases h
    · cases other
    · cases wr <;> cases other
    · cases other
    cases same
    obtain ⟨nodes, rfl, pairs⟩ := compileCases_pairs names nodup (fun e he => absurd he List.not_mem_nil) hdone
    refine .variants (binds_of_bindRules hbound) ?_
    clear hdone h hbound nodup names hc
    induction pairs with
    | nil => exact .nil
    | @cons e d rest nodes pair _ later =>
      obtain ⟨name, payload⟩ := e
      obtain ⟨name', m⟩ := d
      obtain ⟨rfl, hm⟩ := pair
      refine .cons ?_ (later fun name s hs => ih name s (List.mem_cons_of_mem _ hs))
      cases payload with
      | shape s =>
        rw [compilePayload] at hm
        obtain ⟨m', hm', hm⟩ := Except.bind_eq_ok.mp hm
        cases hm
        exact .shape (ih name s List.mem_cons_self hm')
      | target t => exact compilePayload_builds hm

end Workshop

/-! ### Fields -/

namespace SchemaBuilder
variable {w : Workshop} {site : Site} {rule : Rule}

/-- A rule is placed when its function is known and applies somewhere. -/
theorem placeRule_eq_ok {s placed : Shape} : placeRule site w s rule = .ok placed ↔
    ∃ f, w.table.find? rule.name = some f ∧ Shape.Places f.appliesTo rule s placed := by
  simp only [← Shape.place_iff]
  unfold placeRule Workshop.lookUp
  rcases w.table.find? rule.name with _ | f
  · exact ⟨nofun, by simp⟩
  change (match s.place f.appliesTo rule with
    | some s => Except.ok s
    | none => s.describe >>= fun d => Except.error (Fault.refused (.unplaceable rule.name d s.kind.name site))) = _ ↔ _
  simp only [Option.some.injEq, exists_eq_left']
  rcases s.place f.appliesTo rule with _ | s'
  · cases s.describe <;> simp [bind, Except.bind]
  · simp

theorem placeRule_unplaced {s : Shape} {f : ConstraintFunction} {d : String} (found : w.table.find? rule.name = some f)
    (h : s.place f.appliesTo rule = none) (described : s.describe = .ok d) :
    placeRule site w s rule = .error (.refused (.unplaceable rule.name d s.kind.name site)) := by
  unfold placeRule Workshop.lookUp
  rw [found, described]
  change (match s.place f.appliesTo rule with
    | some s => Except.ok s
    | none => Except.error (Fault.refused (.unplaceable rule.name d s.kind.name site))) = _
  rw [h]

/-- Where rules are placed one after the other, each has a level to land at, and a node that is built from the outcome is
built from the shape with the rules where they land, in their order. -/
theorem placeAll_lands : ∀ {rules : List Rule} {s placed : Shape}, rules.foldlM (placeRule site w) s = .ok placed →
    (s.Crafted → placed.Crafted) ∧ (∀ rule ∈ rules, ∃ i, s.landing w.table rule = some i) ∧
      ∀ {more : Nat → List Rule} {n : Node}, placed.Builds w more n →
        s.Builds w (fun i => rules.filter (fun rule => s.landing w.table rule = some i) ++ more i) n
  | [], s, placed, h => by
    cases h
    exact ⟨id, by simp, fun builds => by simpa using builds⟩
  | rule :: rules, s, placed, h => by
    rw [List.foldlM_cons] at h
    obtain ⟨s', hs', h⟩ := Except.bind_eq_ok.mp h
    obtain ⟨f, found, placed_here⟩ := placeRule_eq_ok.mp hs'
    have landing_eq : s'.landing w.table = s.landing w.table := Shape.landing_of_chain placed_here.chain_eq
    obtain ⟨crafted, lands, later⟩ := placeAll_lands h
    rw [landing_eq] at lands
    refine ⟨fun own => crafted (own.places placed_here).1,
      List.forall_mem_cons.mpr ⟨Shape.landing_isSome found placed_here, lands⟩, fun {more n} builds => ?_⟩
    obtain ⟨i, first, builds⟩ := placed_here.builds (later builds)
    rw [landing_eq] at builds
    have lands_at : s.landing w.table rule = some i := by rw [Shape.landing, found, Option.bind_some, first]
    convert builds using 1
    funext j
    by_cases here : j = i
    · subst here
      simp [lands_at]
    · simp [lands_at, here, Ne.symm here]

/-- Of rules whose names are known, the first that has no level to land at is refused, and if there is none all are
placed. -/
theorem placeAll_refuses : ∀ {rules : List Rule} {s : Shape} {d : String}, s.Crafted → s.describe = .ok d →
    (∀ rule ∈ rules, (w.table.find? rule.name).isSome = true) →
    (∃ placed, rules.foldlM (placeRule site w) s = .ok placed) ∨
      ∃ before rule after, rules = before ++ rule :: after ∧ (∀ r ∈ before, ∃ i, s.landing w.table r = some i) ∧
        s.landing w.table rule = none ∧
        rules.foldlM (placeRule site w) s = .error (.refused (.unplaceable rule.name d s.kind.name site))
  | [], s, d, _, _, _ => .inl ⟨s, rfl⟩
  | rule :: rules, s, d, crafted, described, known => by
    obtain ⟨own, known⟩ := List.forall_mem_cons.mp known
    obtain ⟨f, found⟩ := Option.isSome_iff_exists.mp own
    rw [List.foldlM_cons]
    rcases here : s.place f.appliesTo rule with _ | s'
    · have nowhere : s.landing w.table rule = none := by
        rw [Shape.landing, found, Option.bind_some, ← Shape.place_eq_none rule, here]
      rw [placeRule_unplaced found here described]
      exact .inr ⟨[], rule, rules, rfl, by simp, nowhere, rfl⟩
    · have here := Shape.place_iff.mp here
      have chain := here.chain_eq
      obtain ⟨crafted', described'⟩ := crafted.places here
      rw [placeRule_eq_ok.mpr ⟨f, found, here⟩]
      obtain ok | ⟨before, r, after, rfl, landed, nowhere, refused⟩ :=
        placeAll_refuses crafted' (described'.trans described) known
      · exact .inl ok
      · rw [Shape.landing_of_chain chain] at landed nowhere
        rw [Shape.kind_of_chain chain] at refused
        have first : ∃ i, s.landing w.table rule = some i := Shape.landing_isSome found here
        exact .inr ⟨rule :: before, r, after, rfl, List.forall_mem_cons.mpr ⟨first, landed⟩, nowhere, refused⟩

variable {b : SchemaBuilder} {h : Host} {t : FunctionTable} {name : Value} {spelling : ShapeSpelling} {s : Shape}
variable {spellings : List RuleSpelling} {named : List (String × Value)} {rules : List Rule}

/-- A field that is accepted has a node that is built from its shape, with each of its rules where it lands. -/
theorem field_builds {b' : SchemaBuilder} (shaped : Shape.ofSpelling spelling = .ok s) (crafted : s.Crafted)
    (spelled : Rule.ofSpellings spellings named = .ok rules) (accepted : b.field h t name spelling spellings named = .ok b') :
    (∀ rule ∈ rules, ∃ i, s.landing t rule = some i) ∧ ∃ n, b' = { b with fields := b.fields ++ [(name, n)] } ∧
      s.Builds (b.workshop h t) (fun i => rules.filter fun rule => s.landing t rule = some i) n := by
  rw [field_eq, shaped, spelled] at accepted
  split at accepted
  · cases accepted
  obtain ⟨n, hn, rfl⟩ := Except.map_eq_ok.mp accepted
  obtain ⟨placed, hplaced, compiled⟩ := Except.bind_eq_ok.mp hn
  obtain ⟨placed_crafted, lands, builds⟩ := placeAll_lands hplaced
  refine ⟨lands, n, rfl, ?_⟩
  have built := builds (Workshop.compile_builds (placed_crafted crafted) compiled)
  simp only [List.append_nil] at built
  exact built

/-- What placing refuses, declaring the field refuses. -/
theorem field_unplaced {f : Fault} (shaped : Shape.ofSpelling spelling = .ok s)
    (spelled : Rule.ofSpellings spellings named = .ok rules) (fresh : ∀ e ∈ b.fields, e.1.eq name = false)
    (refused : rules.foldlM (placeRule { schema := b.name, field := some name } (b.workshop h t)) s = .error f) :
    b.field h t name spelling spellings named = .error f := by
  rw [field_spelled fresh shaped spelled, fieldNode, refused]
  rfl

end SchemaBuilder

/-- The rules of a field land on exactly one level each: the outermost level of the chain that the function of the rule
applies to. An accepted field has the levels of its shape, each with the rules it was declared with, in order, and after
them those that landed there, in the order of the field. As long as the names of the rules are known, they cannot be
placed just when some rule has no level to land at, and then the field is refused for the first such rule. -/
theorem rules_land_outermost {b : SchemaBuilder} {h : Host} {t : FunctionTable} {name : Value} {spelling : ShapeSpelling}
    {s : Shape} {spellings : List RuleSpelling} {named : List (String × Value)} {rules : List Rule}
    (shaped : Shape.ofSpelling spelling = .ok s) (crafted : s.Crafted)
    (spelled : Rule.ofSpellings spellings named = .ok rules) :
    (∀ b', b.field h t name spelling spellings named = .ok b' →
      (∀ rule ∈ rules, ∃ i, s.landing t rule = some i) ∧ ∃ n, b' = { b with fields := b.fields ++ [(name, n)] } ∧
        s.Builds (b.workshop h t) (fun i => rules.filter fun rule => s.landing t rule = some i) n) ∧
    ((∀ rule ∈ rules, (t.find? rule.name).isSome = true) →
      ((∃ f, rules.foldlM (SchemaBuilder.placeRule { schema := b.name, field := some name } (b.workshop h t)) s = .error f) ↔
        ∃ rule ∈ rules, s.landing t rule = none) ∧
      ((∃ rule ∈ rules, s.landing t rule = none) → (∀ e ∈ b.fields, e.1.eq name = false) →
        ∃ before rule after r, rules = before ++ rule :: after ∧ (∀ r ∈ before, ∃ i, s.landing t r = some i) ∧
          s.landing t rule = none ∧ b.field h t name spelling spellings named = .error (.refused r) ∧
          r.kind = .constraintType ∧ ∃ d, s.describe = .ok d ∧
            r = .unplaceable rule.name d s.kind.name { schema := b.name, field := some name })) := by
  refine ⟨fun b' => SchemaBuilder.field_builds shaped crafted spelled, fun known => ?_⟩
  obtain ⟨d, described⟩ := crafted.describe_ok
  obtain ⟨placed, hplaced⟩ | ⟨before, rule, after, rfl, landed, nowhere, refused⟩ :=
    @SchemaBuilder.placeAll_refuses (b.workshop h t) { schema := b.name, field := some name } rules s d crafted described known
  · obtain ⟨-, lands, -⟩ := SchemaBuilder.placeAll_lands hplaced
    have all : ¬∃ rule ∈ rules, s.landing t rule = none := by
      rintro ⟨rule, hm, nowhere⟩
      obtain ⟨i, hi⟩ := lands rule hm
      cases nowhere.symm.trans hi
    refine ⟨⟨?_, fun some => absurd some all⟩, fun some => absurd some all⟩
    rintro ⟨f, hf⟩
    cases hplaced.symm.trans hf
  · refine ⟨⟨fun _ => ⟨rule, by simp, nowhere⟩, fun _ => ⟨_, refused⟩⟩, fun _ fresh => ?_⟩
    exact ⟨before, rule, after, _, rfl, landed, nowhere, SchemaBuilder.field_unplaced shaped spelled fresh refused, rfl, d,
      described, rfl⟩

/-- Votes are a list of whole numbers. -/
abbrev Shape.votes : Shape := .wrapper .sequence (some (.scalar (.cls (.builtin .int) []) [])) none []

/-- Where votes may be missing, the limit of a vote goes to the elements of the list, and that of their number to the list
itself; the limit of a number that may be missing is at home on neither. -/
theorem rules_land_outermost_on_votes :
    (∃ b' n, SchemaBuilder.field { name := .text "Poll" } .bare .default (.text "votes")
        (.shape (.wrapper .optional (some .votes) none [])) [.rule ⟨"max", .int 9⟩, .rule ⟨"max_len", .int 3⟩] [] = .ok b' ∧
      b'.fields = [(.text "votes", n)] ∧
      (Shape.wrapper .optional (some .votes) none []).Builds (SchemaBuilder.workshop { name := .text "Poll" } .bare .default)
        (fun i => if i = 1 then [⟨"max_len", .int 3⟩] else if i = 2 then [⟨"max", .int 9⟩] else []) n) ∧
    ∃ r, SchemaBuilder.field { name := .text "Poll" } .bare .default (.text "votes") (.shape .votes)
        [.rule ⟨"option_max", .int 9⟩] [] = .error (.refused r) ∧ r.kind = .constraintType := by
  have crafted : Shape.votes.Crafted := .wrapper (.scalar (.inr ⟨_, _, rfl⟩)) nofun
  constructor
  · have shaped : Shape.ofSpelling (.shape (.wrapper .optional (some .votes) none [])) = .ok _ := rfl
    have spelled : Rule.ofSpellings [.rule ⟨"max", .int 9⟩, .rule ⟨"max_len", .int 3⟩] [] =
      .ok [⟨"max", .int 9⟩, ⟨"max_len", .int 3⟩] := rfl
    obtain ⟨-, n, grown, builds⟩ := (@rules_land_outermost { name := .text "Poll" } .bare .default (.text "votes") _ _ _ _ _
      shaped (.wrapper crafted nofun) spelled).1 _ rfl
    refine ⟨_, n, rfl, congrArg SchemaBuilder.fields grown, ?_⟩
    have limit : (Shape.wrapper .optional (some .votes) none []).landing .default ⟨"max", .int 9⟩ = some 2 := rfl
    have number : (Shape.wrapper .optional (some .votes) none []).landing .default ⟨"max_len", .int 3⟩ = some 1 := rfl
    convert builds using 1
    funext i
    rcases i with _ | _ | _ | i <;> simp [limit, number]
  · have shaped : Shape.ofSpelling (.shape .votes) = .ok _ := rfl
    have spelled : Rule.ofSpellings [.rule ⟨"option_max", .int 9⟩] [] = .ok [⟨"option_max", .int 9⟩] := rfl
    obtain ⟨-, refused⟩ := (@rules_land_outermost { name := .text "Poll" } .bare .default (.text "votes") _ _ _ _ _
      shaped crafted spelled).2 (by decide)
    obtain ⟨-, -, -, r, -, -, -, h, kind, -⟩ := refused ⟨_, List.mem_cons_self, rfl⟩ nofun
    exact ⟨r, h, kind⟩

end Conform
