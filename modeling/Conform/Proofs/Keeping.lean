import Conform.Proofs.Declared
import Conform.Proofs.Inferring

/-!
What the schema of a class keeps of the hints of its fields. A field has the rules that are declared in its hint and
with its value, as often as they are declared, if hints are followed wherever something is declared: those inside the
hint at their levels, and the others where they are placed. A field that is left out has nothing declared where hints
are followed.
-/

namespace Conform

/-! ### Shapes with nothing to keep -/

namespace Shape

theorem allRules_of_hasRules : ∀ s : Shape, s.hasRules = false → s.allRules = []
  | .mk kind rules type inner keys target cases tag, bare => by
    rw [hasRules.eq_def] at bare
    simp only [Bool.or_eq_false_iff, Bool.not_eq_false', List.isEmpty_iff] at bare
    obtain ⟨⟨⟨rfl, inside⟩, insideKeys⟩, -⟩ := bare
    have below : rulesWithin inner = [] := by
      cases inner with
      | none => rfl
      | some s => exact allRules_of_hasRules s inside
    have belowKeys : rulesWithin keys = [] := by
      cases keys with
      | none => rfl
      | some s => exact allRules_of_hasRules s insideKeys
    rw [allRules, below, belowKeys, List.append_nil, ite_self, List.append_nil]

theorem contains_of_kind {kinds : List FieldKind} {s : Shape} (hk : s.kind ∈ kinds) : s.contains kinds = true := by
  obtain ⟨kind, rules, type, inner, keys, target, cases, tag⟩ := s
  have own : kinds.contains kind = true := List.contains_iff_mem.mpr hk
  rw [contains.eq_def]
  simp only [own, Bool.true_or]

theorem contains_of_inner {kinds : List FieldKind} {s below : Shape} (hs : s.inner = some below)
    (inside : below.contains kinds = true) : s.contains kinds = true := by
  obtain ⟨kind, rules, type, inner, keys, target, cases, tag⟩ := s
  cases hs
  rw [contains.eq_def]
  simp only [inside, Bool.or_true, Bool.true_or]

theorem contains_of_keys {kinds : List FieldKind} {s below : Shape} (hs : s.keys = some below)
    (inside : below.contains kinds = true) : s.contains kinds = true := by
  obtain ⟨kind, rules, type, inner, keys, target, cases, tag⟩ := s
  cases hs
  rw [contains.eq_def]
  simp only [inside, Bool.or_true]

/-- A shape contains the kinds of its levels, but for scalars, which a missing shape stands for. -/
theorem contains_of_at {kinds : List FieldKind} (noScalar : kinds.contains .scalar = false) :
    ∀ {way : List Turn} {s c : Shape}, s.at? way = some c → c.kind ∈ kinds → s.contains kinds = true
  | [], s, c, hc, hk => by
    cases hc
    exact contains_of_kind hk
  | .inner :: way, s, c, hc, hk => by
    obtain ⟨below, hbelow, hc⟩ := Option.bind_eq_some_iff.mp hc
    have inside := contains_of_at noScalar hc hk
    unfold content at hbelow
    split at hbelow
    · cases hs : s.inner with
      | some s' =>
        rw [hs] at hbelow
        cases hbelow
        exact contains_of_inner hs inside
      | none =>
        rw [hs] at hbelow
        cases hbelow
        rw [Option.getD_none, scalar, contains, noScalar] at inside
        cases inside
    · cases hbelow
  | .keys :: way, s, c, hc, hk => by
    obtain ⟨below, hbelow, hc⟩ := Option.bind_eq_some_iff.mp hc
    unfold entryKeys at hbelow
    split at hbelow
    · exact contains_of_keys hbelow (contains_of_at noScalar hc hk)
    · cases hbelow
  | .case _ :: way, s, c, hc, hk => by cases hc
  | .field _ :: way, s, c, hc, hk => by cases hc

theorem Offers.kind {v : Value} {s : Shape} (offers : s.Offers v) : s.kind ∈ [FieldKind.nested, .enum] := by
  cases offers with
  | nested => exact List.mem_cons_self
  | case => exact List.mem_cons_of_mem _ List.mem_cons_self

end Shape

/-! ### Fields -/

/-- A field that is declared has a node, and the rest of the builder stays as it was. -/
theorem SchemaBuilder.field_ok {b b' : SchemaBuilder} {h : Host} {t : FunctionTable} {key : Value} {shape : Shape}
    {rules : List Rule} (hf : b.field h t key (.shape shape) (rules.map .rule) [] = .ok b') :
    ∃ n, b.fieldNode h t { schema := b.name, field := some key } shape rules = .ok n ∧
      b' = { b with fields := b.fields ++ [(key, n)] } := by
  rw [field_eq] at hf
  split at hf
  · cases hf
  obtain ⟨shape', hshape, hf⟩ := Except.bind_eq_ok.mp hf
  obtain ⟨rules', hrules, hf⟩ := Except.bind_eq_ok.mp hf
  cases malformed_eq_ok hshape
  cases (Rule.ofSpellings_rules rules).symm.trans (malformed_eq_ok hrules)
  obtain ⟨n, hn, rfl⟩ := Except.map_eq_ok.mp hf
  exact ⟨n, hn, rfl⟩

/-! ### Hints of fields -/

namespace Hint

/-- A hint without the declarations beside it. -/
def base : Hint → Hint
  | .annotated base _ => base
  | x => x

/-- The declarations beside a hint. -/
def notes : Hint → List Declarations
  | .annotated _ notes => notes
  | _ => []

end Hint

namespace ClassModel

/-- The declarations of a field: those beside its hint, then that of its value. -/
def declared (m : ClassModel) (name : String) (hint : Hint) : List Declarations :=
  hint.notes ++ (m.declarationsOf name).toList

/-- The rules that are declared for a field as a whole. -/
def fieldRules (m : ClassModel) (name : String) (hint : Hint) : List Rule :=
  (m.declared name hint).flatMap Declarations.rules

/-- The hint of a field with all its declarations beside it. -/
def whole (m : ClassModel) (name : String) (hint : Hint) : Hint := .annotated hint.base (m.declared name hint)

/-- The shape of a field: the last explicit one, else the one that its hint suggests. -/
def fieldShape (h : Host) (m : ClassModel) (name : String) (hint : Hint) : Shape :=
  (Hint.explicit (m.declared name hint)).getD (hint.base.inferShape h (some (.declared m.ref)))

/-- What is declared for a field stands where it is followed. -/
def Followed (m : ClassModel) (name : String) (hint : Hint) : Prop :=
  Hint.explicit (m.declared name hint) = none → hint.base.Sighted

/-- A level of a node has some rules, in order, and after them only rules of the field as a whole. -/
def Level (m : ClassModel) (name : String) (hint : Hint) (level : Node) (rules : List Rule) : Prop :=
  ∃ placed, placed.Sublist (m.fieldRules name hint) ∧ level.rules.map BoundRule.declared = rules ++ placed

/-- The node of a field keeps what is declared in the hint of the field and with its value. -/
structure Keeps (h : Host) (m : ClassModel) (name : String) (hint : Hint) (n : Node) : Prop where
  /-- No rule is there that is not declared, and none more often than it is. -/
  most : n.allRules.Subperm (m.whole name hint).rules
  /-- Every declared rule is there as often as it is declared, if and only if all that is declared is followed. -/
  rules : n.allRules.Perm (m.whole name hint).rules ↔ m.Followed name hint
  /-- Rules inside the hint are at their level, after those of an explicit shape beside them. -/
  levels : Hint.explicit (m.declared name hint) = none → ∀ way base notes,
    Hint.Inside hint.base way (.annotated base notes) → Hint.Kept notes → ∃ level, n.at? way = some level ∧
      m.Level name hint level (((Hint.explicit notes).getD (base.inferShape h (some (.declared m.ref)))).rules
        ++ notes.flatMap Declarations.rules)
  /-- An explicit shape of the field stands for what the hint suggests. -/
  replaced : ∀ s, Hint.explicit (m.declared name hint) = some s → ∀ way c, s.at? way = some c →
    ∃ level, n.at? way = some level ∧ m.Level name hint level c.rules
  /-- Every class with a schema in the hint is a structure at its level, or a case there. -/
  structures : Hint.explicit (m.declared name hint) = none → ∀ way c attributes,
    Hint.Sees h (some (.declared m.ref)) hint.base way c attributes →
      ∃ level, n.at? way = some level ∧ level.Offers (.cls c attributes)

/-- Nothing of a field is kept: there is no explicit shape, nothing is declared where it is followed, and no class with
a schema is in the hint. -/
structure Idle (h : Host) (m : ClassModel) (name : String) (hint : Hint) : Prop where
  bare : Hint.explicit (m.declared name hint) = none
  rules : (m.whole name hint).rules = [] ↔ m.Followed name hint
  structures : ∀ way c attributes, ¬ Hint.Sees h (some (.declared m.ref)) hint.base way c attributes

section Fields
variable {h : Host} {t : FunctionTable} {m : ClassModel} {name : String} {hint : Hint}

/-- A field is left out only if there is no explicit shape and nothing to validate. -/
theorem hintedField_eq (plain : roleOf hint = .plain) : hintedField h m name hint =
    if (Hint.explicit (m.declared name hint)).isSome || isWorthWalking (m.fieldShape h name hint) (m.fieldRules name hint)
    then some ⟨name, m.fieldShape h name hint, m.fieldRules name hint⟩ else none := by
  unfold hintedField
  rw [if_neg (not_not_intro plain), fieldShape, fieldRules]
  cases given : Hint.explicit (m.declared name hint) <;> cases hint <;>
    (unfold Hint.explicit declared Hint.notes at given; dsimp only; rw [given]; rfl)

theorem fieldShape_subperm :
    ((m.fieldShape h name hint).allRules ++ m.fieldRules name hint).Subperm (m.whole name hint).rules := by
  rw [whole, Hint.rules, fieldShape]
  refine List.Subperm.append ?_ (List.Subperm.refl _)
  cases Hint.explicit (m.declared name hint) with
  | some s => exact List.Subperm.refl _
  | none => exact (Hint.inferShape_rules _).1

/-- The shape of a field and the rules of the field are all that is declared, if and only if it is followed. -/
theorem fieldShape_perm_iff :
    ((m.fieldShape h name hint).allRules ++ m.fieldRules name hint).Perm (m.whole name hint).rules ↔
      m.Followed name hint := by
  rw [whole, Hint.rules, fieldRules, List.perm_append_right_iff, fieldShape, Followed]
  cases given : Hint.explicit (m.declared name hint) with
  | some s => exact ⟨nofun, fun _ => List.Perm.refl _⟩
  | none => exact Hint.allRules_perm_iff.trans ⟨fun sighted _ => sighted, fun followed => followed rfl⟩

/-- A field is left out only if there is nothing to keep. -/
theorem hintedField_none (plain : roleOf hint = .plain) (out : hintedField h m name hint = none) : m.Idle h name hint := by
  rw [hintedField_eq plain] at out
  split at out
  · cases out
  next idle =>
  simp only [Bool.or_eq_true, not_or, Bool.not_eq_true, Option.isSome_eq_false_iff, Option.isNone_iff_eq_none] at idle
  obtain ⟨bare, idle⟩ := idle
  simp only [isWorthWalking, Bool.or_eq_false_iff, Bool.not_eq_false', List.isEmpty_iff] at idle
  obtain ⟨⟨own, noRules⟩, noStructures⟩ := idle
  refine ⟨bare, ?_, fun way c attributes sees => ?_⟩
  · rw [← fieldShape_perm_iff (h := h), own, Shape.allRules_of_hasRules _ noRules]
    exact List.nil_perm.symm
  · obtain ⟨s, hs, offers⟩ := sees.offers
    rw [fieldShape, bare, Option.getD_none] at noStructures
    have found := Shape.contains_of_at (by rfl) hs offers.kind
    rw [noStructures] at found
    cases found

/-- A class with a schema in the hints of a class stands for a structure when the class is compiled. -/
theorem isScalarClass_eq_false {b : SchemaBuilder} (target : b.targetType = m.toValue) {c : ClassRef}
    {attributes : List (String × Value)} (known : Hint.isStructure h (some (.declared m.ref)) (.cls c attributes) = true) :
    (b.workshop h t).isScalarClass (.value (.cls c attributes)) = false := by
  rw [Hint.isStructure, Bool.or_eq_true, beq_iff_eq, Option.some.injEq] at known
  change ((h.schemaOf? (.cls c attributes)).isNone && !(b.workshop h t).isTargetType (.cls c attributes)) = false
  rcases known with rfl | known
  · have own : (b.workshop h t).isTargetType (.cls (.declared m.ref) attributes) = true := by
      have described : (b.workshop h t).targetType = .cls (.declared m.ref) m.classAttributes := target
      unfold Workshop.isTargetType
      rw [described]
      exact beq_self_eq_true _
    rw [own, Bool.not_true, Bool.and_false]
  · rw [Option.isNone_eq_false_iff.mpr known, Bool.false_and]

/-- A field that is compiled keeps what is declared for it. -/
theorem fieldNode_keeps {b : SchemaBuilder} {site : Site} {n : Node} (resolver : b.resolver = none)
    (target : b.targetType = m.toValue)
    (hn : b.fieldNode h t site (m.fieldShape h name hint) (m.fieldRules name hint) = .ok n) : m.Keeps h name hint n := by
  obtain ⟨all, levels⟩ := SchemaBuilder.fieldNode_keeps resolver hn
  refine ⟨all.subperm.trans fieldShape_subperm, ?_, fun bare way base notes inside kept => ?_, fun s given way c hc => ?_,
    fun bare way c attributes sees => ?_⟩
  · rw [← fieldShape_perm_iff (h := h)]
    exact ⟨all.symm.trans, all.trans⟩
  · rw [fieldShape, bare, Option.getD_none] at levels
    obtain ⟨level, -, placed, hlevel, -, -, sub, rules⟩ := levels inside.level
    refine ⟨level, hlevel, placed, sub, ?_⟩
    rw [rules, Hint.inferShape, kept.amend_eq]
    rfl
  · rw [fieldShape, given, Option.getD_some] at levels
    obtain ⟨level, -, placed, hlevel, -, -, sub, rules⟩ := levels hc
    exact ⟨level, hlevel, placed, sub, rules⟩
  · rw [fieldShape, bare, Option.getD_none] at levels
    obtain ⟨s, hs, offers⟩ := sees.offers
    obtain ⟨level, s', more, hlevel, compiled, grown, -, -⟩ := levels hs
    exact ⟨level, hlevel, Workshop.compile_offers (isScalarClass_eq_false target sees.known) grown compiled offers⟩

/-- The schema of a class keeps what is declared in the hint of a field and with its value. -/
theorem schema_keeps {scope : String → Option Hint} {serial : Nat} {o : SchemaOptions} {s : Schema} {meant : Hint}
    (hs : m.schema h t scope serial o = .ok s) (hm : (name, hint) ∈ m.allHints)
    (hmeant : hint.ofAnnotation (m.names scope) = .ok meant) (plain : roleOf meant = .plain) :
    (∃ n, (.text name, n) ∈ s.fields ∧ m.Keeps h name meant n) ∨ m.Idle h name meant := by
  obtain ⟨hints, b, checks, hhints, hb, -, rfl⟩ := schema_cases hs
  obtain ⟨⟨name', meant'⟩, hmem, found⟩ := mapM_reaches hhints hm
  obtain ⟨meant'', hmeant', heq⟩ := Except.map_eq_ok.mp found
  cases heq
  cases hmeant.symm.trans hmeant'
  cases hf : hintedField h m name meant with
  | none => exact .inr (hintedField_none plain hf)
  | some f =>
    left
    -- The fields are declared in turn: one adds this node, and the others leave it there.
    refine foldlM_reaches (I := fun b => b.resolver = none ∧ b.targetType = m.toValue)
      (P := fun b => ∃ n, (.text name, n) ∈ b.fields ∧ m.Keeps h name meant n) (x := f) ?_ ?_
      (List.mem_filterMap.mpr ⟨_, hmem, hf⟩) ⟨rfl, rfl⟩ hb
    · intro b g b' hb'
      obtain ⟨n, -, rfl⟩ := SchemaBuilder.field_ok hb'
      exact ⟨id, fun ⟨n, hn, keeps⟩ => ⟨n, List.mem_append_left _ hn, keeps⟩⟩
    · intro b b' described hb'
      obtain ⟨n, hn, rfl⟩ := SchemaBuilder.field_ok hb'
      rw [hintedField_eq plain] at hf
      split at hf
      · cases hf
        exact ⟨n, List.mem_append_right _ List.mem_cons_self, fieldNode_keeps described.1 described.2 hn⟩
      · cases hf

end Fields

/-- Lists of at most three numbers, each at most ten. -/
abbrev boundedHint : Hint := .annotated
  (.generic (.elements "list") [.annotated (.cls (.builtin .int) []) [{ rules := [⟨"max", .int 10⟩] }]])
  [{ rules := [⟨"max_len", .int 3⟩] }]

/-- A class with a field for such a list. -/
abbrev boundedClass : ClassModel where
  ref := ⟨0, "Box", "Box", [], none⟩
  doc := none
  hints := [("items", boundedHint)]
  attributes := []
  dataFields := none
  ancestors := []

theorem schema_keeps_of_list : ∃ s n, boundedClass.schema .bare .default (fun _ => none) 0 {} = .ok s ∧
    (.text "items", n) ∈ s.fields ∧ n.allRules.Perm [⟨"max", .int 10⟩, ⟨"max_len", .int 3⟩] := by
  obtain ⟨s, hs⟩ : ∃ s, boundedClass.schema .bare .default (fun _ => none) 0 {} = .ok s := ⟨_, rfl⟩
  have hm : ("items", boundedHint) ∈ boundedClass.allHints := List.mem_cons_self
  have hmeant : boundedHint.ofAnnotation (boundedClass.names fun _ => none) = .ok boundedHint := rfl
  have followed : boundedClass.Followed "items" boundedHint := fun _ =>
    .element (.annotated (.of_bare rfl) fun _ => .blank rfl) rfl
  rcases schema_keeps hs hm hmeant rfl with ⟨n, hn, keeps⟩ | idle
  · exact ⟨s, n, hs, hn, keeps.rules.mpr followed⟩
  · cases idle.rules.mpr followed

end ClassModel
end Conform
