import Conform.Declaration.ClassSchema
import Conform.Proofs.Compiled

/-!
What the schema of a class is made of. The shapes of its fields hold no schemas but those that its hints, the
names in them, and its declarations bring along; so the schema is sound when those are.
-/

namespace Conform

/-! ### Schemas inside shapes and hints -/

namespace Shape

theorem mem_caseSchemas {u : Schema} : ∀ {cases : List (Value × Payload)},
    u ∈ caseSchemas cases ↔ ∃ name payload, (name, payload) ∈ cases ∧ u ∈ payload.schemas
  | [] => by simp [caseSchemas]
  | (name, payload) :: rest => by
    rw [caseSchemas, List.mem_append, mem_caseSchemas]
    constructor
    · rintro (hu | ⟨n, p, hm, hu⟩)
      · exact ⟨name, payload, List.mem_cons_self, hu⟩
      · exact ⟨n, p, List.mem_cons_of_mem _ hm, hu⟩
    · rintro ⟨n, p, hm, hu⟩
      obtain hm | hm := List.mem_cons.mp hm
      · cases hm
        exact .inl hu
      · exact .inr ⟨n, p, hm, hu⟩

@[simp] theorem schemas_scalar (type : Value) (rules : List Rule) : (scalar type rules).schemas = [] := by
  simp [scalar, schemas, innerSchemas, choiceSchemas, Target.schemas]

@[simp] theorem schemas_wrapper (w : Wrapper) (inner keys : Option Shape) (rules : List Rule) :
    (wrapper w inner keys rules).schemas = innerSchemas inner ++ innerSchemas keys := by
  simp [wrapper, schemas, choiceSchemas, Target.schemas]

@[simp] theorem schemas_nested (target : Target) (rules : List Rule) :
    (nested target rules).schemas = target.schemas := by
  simp [nested, schemas, innerSchemas, choiceSchemas]

@[simp] theorem schemas_variants (cases : List (Value × Payload)) (tag : Value) (rules : List Rule) :
    (variants cases tag rules).schemas = caseSchemas cases := by
  simp [variants, schemas, innerSchemas, choiceSchemas, Target.schemas]

@[simp] theorem schemas_withRules (s : Shape) (more : List Rule) : (s.withRules more).schemas = s.schemas := by
  cases s
  simp only [withRules, schemas, inner, keys, target, cases]

end Shape

/-- The schemas of the shape that is declared, if one is. -/
def Declarations.schemas (d : Declarations) : List Schema := Shape.innerSchemas d.shape

namespace Hint

mutual

/-- The schemas that stand in a hint. -/
def schemas : Hint → List Schema
  | .generic _ args => allSchemas args
  | .union members => allSchemas members
  | .annotated base notes => base.schemas ++ notes.flatMap Declarations.schemas
  | .classVariable h | .initVariable h => h.schemas
  | .nothing | .cls _ _ | .forward _ | .literal _ => []

/-- The schemas that stand in several hints. -/
def allSchemas : List Hint → List Schema
  | [] => []
  | x :: rest => x.schemas ++ allSchemas rest

end

theorem mem_allSchemas {u : Schema} : ∀ {hints : List Hint}, u ∈ allSchemas hints ↔ ∃ x ∈ hints, u ∈ x.schemas
  | [] => by simp [allSchemas]
  | x :: rest => by simp [allSchemas, mem_allSchemas]

/-! ### Shapes that hints suggest -/

theorem schemas_amend {u : Schema} : ∀ {notes : List Declarations} {s : Shape}, u ∈ (amend s notes).schemas →
    u ∈ s.schemas ++ notes.flatMap Declarations.schemas
  | [], s, hu => by simpa [amend] using hu
  | note :: rest, s, hu => by
    have hu : u ∈ (amend ((note.shape.getD s).withRules note.rules) rest).schemas := hu
    have ih := schemas_amend hu
    rw [Shape.schemas_withRules] at ih
    rw [List.flatMap_cons]
    obtain ih | ih := List.mem_append.mp ih
    · cases hshape : note.shape with
      | none =>
        rw [hshape] at ih
        exact List.mem_append_left _ ih
      | some shape =>
        rw [hshape] at ih
        have : u ∈ note.schemas := by simpa [Declarations.schemas, hshape, Shape.innerSchemas] using ih
        simp [this]
    · simp only [List.mem_append]
      exact .inr (.inr ih)

/-- A choice between classes carries no schema. -/
theorem schemas_choice (members : List Hint) : Shape.caseSchemas (choice members) = [] := by
  have bare : ∀ name payload, (name, payload) ∈ choice members → payload.schemas = [] := by
    unfold choice
    refine List.foldlRecOn (motive := fun cases : List (Value × Payload) =>
      ∀ name payload, (name, payload) ∈ cases → payload.schemas = []) members _ (fun _ _ hm => by cases hm)
      fun cases hc m _ name payload hm => ?_
    cases m with
    | cls c attributes =>
      obtain hm | ⟨rfl, -⟩ := Value.mem_assign hm
      · exact hc name payload hm
      · simp [Payload.schemas, Target.schemas]
    | _ => exact hc name payload hm
  refine List.eq_nil_iff_forall_not_mem.mpr fun u hu => ?_
  obtain ⟨name, payload, hm, hu⟩ := Shape.mem_caseSchemas.mp hu
  rw [bare name payload hm] at hu
  cases hu

theorem schemas_unionShape (h : Host) (owner : Option ClassRef) (members : List Hint) :
    (unionShape h owner members).schemas = [] := by
  unfold unionShape
  split
  · rw [Shape.schemas_variants, schemas_choice]
  · exact Shape.schemas_scalar _ _

theorem schemas_classShape (h : Host) (owner : Option ClassRef) (c : ClassRef) (attributes : List (String × Value)) :
    (classShape h owner c attributes).schemas = [] := by
  unfold classShape
  split <;> try simp [anyScalar, Shape.innerSchemas]
  split <;> simp [Target.schemas]

/-- Whatever is left of a union is the shape of a member or a choice between classes. -/
theorem schemas_ofPresent {h : Host} {owner : Option ClassRef} {present : List (Hint × Shape)} {all : List Schema}
    (hpresent : ∀ x ∈ present, x.2.schemas ⊆ all) :
    (match present with
      | [(_, s)] => s
      | _ => unionShape h owner (present.map Prod.fst)).schemas ⊆ all := by
  split
  · next m s => exact hpresent _ List.mem_cons_self
  · rw [schemas_unionShape]
    exact List.nil_subset _

mutual

/-- The shape that a hint suggests holds no schemas but those of the hint. -/
theorem schemas_inferShape (h : Host) (owner : Option ClassRef) : ∀ (hint : Hint),
    (hint.inferShape h owner).schemas ⊆ hint.schemas
  | .annotated base notes => by
    intro u hu
    rw [inferShape] at hu
    rw [schemas]
    obtain hu | hu := List.mem_append.mp (schemas_amend hu)
    · exact List.mem_append_left _ (schemas_inferShape h owner base hu)
    · exact List.mem_append_right _ hu
  | .union members => by
    intro u hu
    have shapes := schemas_inferShapes h owner members
    rw [schemas]
    have hpresent : ∀ x ∈ (members.zip (inferShapes h owner members)).filter (fun (m, _) => !m.isAbsentClass),
        x.2.schemas ⊆ allSchemas members := by
      rintro ⟨m, s⟩ hx
      exact shapes s (List.of_mem_zip (List.mem_filter.mp hx).1).2
    rw [inferShape] at hu
    dsimp only at hu
    split at hu
    · simp only [Shape.schemas_wrapper, Shape.innerSchemas, List.append_nil] at hu
      exact schemas_ofPresent hpresent hu
    · exact schemas_ofPresent hpresent hu
  | .generic (.elements _) args => by
    intro u hu
    rw [inferShape] at hu
    rw [schemas]
    simp only [Shape.schemas_wrapper, Shape.innerSchemas, List.append_nil] at hu
    cases hargs : inferShapes h owner args with
    | nil => simp [hargs, anyScalar] at hu
    | cons s rest => exact schemas_inferShapes h owner args s (by simp [hargs]) (by simpa [hargs] using hu)
  | .generic .positions args => by
    intro u hu
    rw [inferShape] at hu
    simp [Shape.innerSchemas, anyScalar] at hu
  | .generic (.entries _) args => by
    intro u hu
    rw [inferShape] at hu
    rw [schemas]
    have shapes := schemas_inferShapes h owner args
    split at hu
    · next keys values hargs =>
      simp only [Shape.schemas_wrapper, Shape.innerSchemas, List.mem_append] at hu
      obtain hu | hu := hu
      · exact shapes values (by simp [hargs]) hu
      · exact shapes keys (by simp [hargs]) hu
    · simp [Shape.innerSchemas, anyScalar] at hu
  | .cls c attributes => by
    intro u hu
    rw [inferShape, schemas_classShape] at hu
    cases hu
  | .nothing | .forward _ | .generic (.other _) _ | .literal _ | .classVariable _ | .initVariable _ => by
    intro u hu
    rw [inferShape, anyScalar, Shape.schemas_scalar] at hu
    cases hu

/-- The shapes that several hints suggest hold no schemas but those of the hints. -/
theorem schemas_inferShapes (h : Host) (owner : Option ClassRef) : ∀ (hints : List Hint),
    ∀ s ∈ inferShapes h owner hints, s.schemas ⊆ allSchemas hints
  | [] => by
    intro s hs
    rw [inferShapes] at hs
    cases hs
  | x :: rest => by
    intro s hs u hu
    rw [inferShapes] at hs
    rw [allSchemas]
    obtain rfl | hs := List.mem_cons.mp hs
    · exact List.mem_append_left _ (schemas_inferShape h owner x hu)
    · exact List.mem_append_right _ (schemas_inferShapes h owner rest s hs hu)

end

/-! ### Hints as their classes mean them -/

theorem schemas_members {u : Schema} {x y : Hint} (hx : x ∈ y.members) (hu : u ∈ x.schemas) : u ∈ y.schemas := by
  unfold members at hx
  split at hx
  · rw [schemas]
    exact mem_allSchemas.mpr ⟨x, hx, hu⟩
  · cases List.mem_singleton.mp hx
    simp [absentClass, schemas] at hu
  · cases List.mem_singleton.mp hx
    exact hu

theorem mem_of_mem_distinct {x : Hint} {hints : List Hint} (hx : x ∈ distinct hints) : x ∈ hints := by
  have seen : ∀ (hints before : List Hint), x ∈ hints.foldl (fun seen h =>
      if seen.any (same · h) then seen else seen ++ [h]) before → x ∈ before ∨ x ∈ hints := by
    intro hints
    induction hints with
    | nil => exact fun before hx => .inl hx
    | cons y rest ih =>
      intro before hx
      obtain hx | hx := ih _ hx
      · dsimp only at hx
        split at hx
        · exact .inl hx
        · obtain hx | hx := List.mem_append.mp hx
          · exact .inl hx
          · exact .inr (List.mem_singleton.mp hx ▸ List.mem_cons_self)
      · exact .inr (List.mem_cons_of_mem _ hx)
  obtain hx | hx := seen hints [] hx
  · cases hx
  · exact hx

theorem schemas_unionOf (hints : List Hint) : (unionOf hints).schemas ⊆ allSchemas hints := by
  intro u hu
  have found : ∃ x ∈ distinct (hints.flatMap members), u ∈ x.schemas := by
    unfold unionOf at hu
    split at hu
    · next h hh => exact ⟨h, by simp [hh], hu⟩
    · rw [schemas] at hu
      exact mem_allSchemas.mp hu
  obtain ⟨x, hx, hu⟩ := found
  obtain ⟨y, hy, hx⟩ := List.mem_flatMap.mp (mem_of_mem_distinct hx)
  exact mem_allSchemas.mpr ⟨y, hy, schemas_members hx hu⟩

theorem schemas_annotate (base : Hint) (notes : List Declarations) :
    (annotate base notes).schemas ⊆ base.schemas ++ notes.flatMap Declarations.schemas := by
  unfold annotate
  split <;> simp [schemas, absentClass]

mutual

theorem schemas_normalize : ∀ (hint : Hint), hint.normalize.schemas ⊆ hint.schemas
  | .generic o args => by
    rw [normalize, schemas, schemas]
    exact schemas_normalizeAll args
  | .union hints => by
    rw [normalize, schemas]
    exact List.Subset.trans (schemas_unionOf _) (schemas_normalizeAll hints)
  | .annotated base notes => by
    rw [normalize, schemas]
    exact List.Subset.trans (schemas_annotate _ _) (List.append_subset.mpr
      ⟨List.Subset.trans (schemas_normalize base) (List.subset_append_left _ _), List.subset_append_right _ _⟩)
  | .classVariable hint => by
    rw [normalize, schemas, schemas]
    exact schemas_normalize hint
  | .nothing | .cls _ _ | .forward _ | .literal _ | .initVariable _ => by
    rw [normalize]
    exact List.Subset.refl _

theorem schemas_normalizeAll : ∀ (hints : List Hint), allSchemas (normalizeAll hints) ⊆ allSchemas hints
  | [] => by
    rw [normalizeAll]
    exact List.Subset.refl _
  | x :: rest => by
    rw [normalizeAll, allSchemas, allSchemas]
    exact List.append_subset.mpr ⟨List.Subset.trans (schemas_normalize x) (List.subset_append_left _ _),
      List.Subset.trans (schemas_normalizeAll rest) (List.subset_append_right _ _)⟩

end

/-- A schema that a name in a hint brings along. -/
def Brings (scope : String → Option Hint) (u : Schema) : Prop := ∃ n hint, scope n = some hint ∧ u ∈ hint.schemas

mutual

theorem schemas_resolve {scope : String → Option Hint} {u : Schema} : ∀ (hint resolved : Hint),
    hint.resolve scope = .ok resolved → u ∈ resolved.schemas → u ∈ hint.schemas ∨ Brings scope u
  | .forward n, resolved => by
    intro h hu
    rw [resolve] at h
    split at h
    · next found hn =>
      cases h
      exact .inr ⟨n, _, hn, hu⟩
    · cases h
  | .generic o args, resolved => by
    intro h hu
    rw [resolve] at h
    obtain ⟨args', hargs, rfl⟩ := Except.map_eq_ok.mp h
    rw [schemas] at hu ⊢
    exact schemas_resolveAll args args' hargs hu
  | .union hints, resolved => by
    intro h hu
    rw [resolve] at h
    obtain ⟨hints', hhints, rfl⟩ := Except.map_eq_ok.mp h
    rw [schemas] at hu ⊢
    exact schemas_resolveAll hints hints' hhints hu
  | .annotated base notes, resolved => by
    intro h hu
    rw [resolve] at h
    obtain ⟨base', hbase, rfl⟩ := Except.map_eq_ok.mp h
    rw [schemas] at hu ⊢
    obtain hu | hu := List.mem_append.mp hu
    · obtain hu | hu := schemas_resolve base base' hbase hu
      · exact .inl (List.mem_append_left _ hu)
      · exact .inr hu
    · exact .inl (List.mem_append_right _ hu)
  | .classVariable hint, resolved => by
    intro h hu
    rw [resolve] at h
    obtain ⟨hint', hhint, rfl⟩ := Except.map_eq_ok.mp h
    rw [schemas] at hu ⊢
    exact schemas_resolve hint hint' hhint hu
  | .nothing, resolved | .cls _ _, resolved | .literal _, resolved | .initVariable _, resolved => by
    intro h hu
    rw [resolve] at h
    cases h
    exact .inl hu

theorem schemas_resolveAll {scope : String → Option Hint} {u : Schema} : ∀ (hints resolved : List Hint),
    resolveAll scope hints = .ok resolved → u ∈ allSchemas resolved → u ∈ allSchemas hints ∨ Brings scope u
  | [], resolved => by
    intro h hu
    rw [resolveAll] at h
    cases h
    exact .inl hu
  | x :: rest, resolved => by
    intro h hu
    rw [resolveAll] at h
    obtain ⟨x', hx, h⟩ := Except.bind_eq_ok.mp h
    obtain ⟨rest', hrest, h⟩ := Except.bind_eq_ok.mp h
    cases h
    rw [allSchemas] at hu ⊢
    obtain hu | hu := List.mem_append.mp hu
    · obtain hu | hu := schemas_resolve x x' hx hu
      · exact .inl (List.mem_append_left _ hu)
      · exact .inr hu
    · obtain hu | hu := schemas_resolveAll rest rest' hrest hu
      · exact .inl (List.mem_append_right _ hu)
      · exact .inr hu

end

theorem schemas_ofAnnotation {scope : String → Option Hint} {hint meant : Hint} {u : Schema}
    (h : hint.ofAnnotation scope = .ok meant) (hu : u ∈ meant.schemas) : u ∈ hint.schemas ∨ Brings scope u := by
  obtain ⟨resolved, hresolved, rfl⟩ := Except.map_eq_ok.mp h
  refine schemas_resolve hint resolved hresolved (schemas_normalize resolved ?_)
  split at hu
  · simp [absentClass, schemas] at hu
  · exact hu

end Hint

/-! ### Schemas of classes -/

namespace ClassModel

/-- A schema that comes into the schema of a class: with a hint, with a name in one, or with a declaration. -/
inductive Uses (m : ClassModel) (scope : String → Option Hint) (u : Schema) : Prop where
  | hint {n hint} (hm : (n, hint) ∈ m.allHints) (hu : u ∈ hint.schemas)
  | name (hu : Hint.Brings scope u)
  | declaration {n d} (hd : m.declarationsOf n = some d) (hu : u ∈ d.schemas)

/-- A field takes the last shape that is declared, beside the hint or with its value, else the suggested one. -/
theorem schemas_fieldOf {h : Host} {m : ClassModel} {name : String} {base hint : Hint}
    {notes declared : List Declarations} {f : HintedField} {u : Schema}
    (hsub : base.schemas ++ notes.flatMap Declarations.schemas ⊆ hint.schemas)
    (hdeclared : declared = notes ++ (m.declarationsOf name).toList)
    (hf : (match (declared.filterMap Declarations.shape).getLast? with
      | some shape => some ⟨name, shape, declared.flatMap Declarations.rules⟩
      | none =>
        let shape := base.inferShape h (some (.declared m.ref))
        if isWorthWalking shape (declared.flatMap Declarations.rules) then
          some ⟨name, shape, declared.flatMap Declarations.rules⟩
        else none : Option HintedField) = some f)
    (hu : u ∈ f.shape.schemas) : u ∈ hint.schemas ∨ ∃ d, m.declarationsOf name = some d ∧ u ∈ d.schemas := by
  subst hdeclared
  split at hf
  · next shape hshape =>
    cases hf
    obtain ⟨d, hd, hshape⟩ := List.mem_filterMap.mp (List.mem_of_getLast? hshape)
    have hu : u ∈ d.schemas := by
      rw [Declarations.schemas, hshape, Shape.innerSchemas]
      exact hu
    obtain hd | hd := List.mem_append.mp hd
    · exact .inl (hsub (List.mem_append_right _ (List.mem_flatMap.mpr ⟨d, hd, hu⟩)))
    · exact .inr ⟨d, Option.mem_toList.mp hd, hu⟩
  · dsimp only at hf
    split at hf
    · cases hf
      exact .inl (hsub (List.mem_append_left _ (Hint.schemas_inferShape h _ base hu)))
    · cases hf

theorem schemas_hintedField {h : Host} {m : ClassModel} {name : String} {hint : Hint} {f : HintedField} {u : Schema}
    (hf : hintedField h m name hint = some f) (hu : u ∈ f.shape.schemas) :
    u ∈ hint.schemas ∨ ∃ d, m.declarationsOf name = some d ∧ u ∈ d.schemas := by
  unfold hintedField at hf
  split at hf
  · cases hf
  · cases hint with
    | annotated base notes =>
      have hsub : base.schemas ++ notes.flatMap Declarations.schemas ⊆ (Hint.annotated base notes).schemas := by
        rw [Hint.schemas]
        exact List.Subset.refl _
      exact schemas_fieldOf hsub rfl hf hu
    | _ => exact schemas_fieldOf (by simp) (List.nil_append _).symm hf hu

/-- What the names in the hints of a class stand for: its own name for the class, and others for what the scope says. -/
def names (m : ClassModel) (scope : String → Option Hint) (s : String) : Option Hint :=
  if s = m.ref.name then some (.cls (.declared m.ref) m.classAttributes) else scope s

/-- How the schema of a class is made: the names in its hints are resolved, the fields that the hints give are declared in
turn, and checks may follow. -/
theorem schema_cases {h : Host} {t : FunctionTable} {scope : String → Option Hint} {serial : Nat} {m : ClassModel}
    {o : SchemaOptions} {s : Schema} (hs : m.schema h t scope serial o = .ok s) :
    ∃ (hints : List (String × Hint)) (b : SchemaBuilder) (checks : List BoundRule),
      (m.allHints.mapM fun e => (Hint.ofAnnotation (m.names scope) e.2).map fun hint => (e.1, hint)) = .ok hints ∧
      (hints.filterMap fun e => hintedField h m e.1 e.2).foldlM
        (fun (b : SchemaBuilder) f => b.field h t (.text f.name) (.shape f.shape) (f.rules.map .rule) [])
        { name := if o.name.truthy then o.name else .text m.ref.name, targetType := m.toValue,
          description := summary m.ref.name m.doc } = .ok b ∧
      (¬o.checks.truthy ∧ checks = b.checks ∨
        o.checks.truthy ∧ ∃ spellings, o.spellings = .ok spellings ∧ b.check h t spellings [] = .ok { b with checks }) ∧
      s = ({ b with checks } : SchemaBuilder).build serial := by
  unfold schema at hs
  obtain ⟨hints, hhints, hs⟩ := Except.bind_eq_ok.mp hs
  obtain ⟨b, hb, hs⟩ := Except.bind_eq_ok.mp hs
  split at hs
  · next given =>
    obtain ⟨spellings, hspellings, hs⟩ := Except.bind_eq_ok.mp hs
    obtain ⟨b', hb', hs⟩ := Except.bind_eq_ok.mp hs
    cases hs
    obtain ⟨_, _, checks, -, rfl⟩ := SchemaBuilder.check_cases hb'
    exact ⟨hints, b, checks, hhints, hb, .inr ⟨given, spellings, hspellings, hb'⟩, rfl⟩
  · next missing =>
    cases hs
    exact ⟨hints, b, b.checks, hhints, hb, .inl ⟨missing, rfl⟩, rfl⟩

/-- The schema of a class is sound when the schemas that come into it are. -/
theorem schema_sound {h : Host} {t : FunctionTable} {scope : String → Option Hint} {serial : Nat} {m : ClassModel}
    {o : SchemaOptions} {s : Schema} (uses : ∀ u, m.Uses scope u → u.Sound)
    (hs : m.schema h t scope serial o = .ok s) : s.Sound := by
  obtain ⟨hints, b, checks, hhints, hb, -, rfl⟩ := schema_cases hs
  have sound : b.Sound := by
    refine foldlM_invariant (P := SchemaBuilder.Sound) ?_ (by simp [SchemaBuilder.Sound]) hb
    intro b hb f hf b' hb'
    refine SchemaBuilder.field_sound hb (fun u hu => uses u ?_) hb'
    obtain ⟨⟨n, meant⟩, hmem, hfield⟩ := List.mem_filterMap.mp hf
    obtain ⟨⟨n', hint⟩, hhint, hmeant⟩ := mem_mapM hhints hmem
    obtain ⟨meant', hmeant, heq⟩ := Except.map_eq_ok.mp hmeant
    cases heq
    obtain hu | ⟨d, hd, hu⟩ := schemas_hintedField hfield hu
    · obtain hu | ⟨n, found, hn, hu⟩ := Hint.schemas_ofAnnotation hmeant hu
      · exact .hint hhint hu
      · unfold names at hn
        split at hn
        · cases hn
          simp [Hint.schemas] at hu
        · exact .name ⟨n, found, hn, hu⟩
    · exact .declaration hd hu
  exact SchemaBuilder.build_sound (b := { b with checks }) sound serial

end ClassModel
end Conform
