import Conform.Proofs.Failing
import Conform.Proofs.Inventory

/-!
How a declaration can fail. A builder of the engine's own functions refuses what is malformed. What it does not
catch are few things (`Uncaught`): a scalar type that is no class, or the marker for any class, asked about a
parameter; a name that a type does not have; a case that is named by no text, in a description; a bound
next to an undefined decimal; and a pattern whose source cannot be read at all, such as one with a repetition that is
too large. Whatever else is declared is accepted or refused.
-/

namespace Conform

/-! ### Kinds of failures -/

/-- A computation fails, if it does, with a fault of some kind. -/
def FailsWith {α : Type} (P : Fault → Prop) (e : Except Fault α) : Prop := ∀ f, e = .error f → P f

namespace FailsWith
variable {α β : Type} {P Q : Fault → Prop} {e : Except Fault α}

theorem ok {a : α} : FailsWith P (.ok a) := nofun

theorem error {f : Fault} (hf : P f) : FailsWith P (.error f : Except Fault α) := by
  rintro _ ⟨⟩
  exact hf

theorem imp (he : FailsWith P e) (h : ∀ f, P f → Q f) : FailsWith Q e := fun f hf => h f (he f hf)

theorem bind {g : α → Except Fault β} (he : FailsWith P e) (hg : ∀ a, e = .ok a → FailsWith P (g a)) :
    FailsWith P (e >>= g) := by
  rcases e with f | a
  · exact error (he f rfl)
  · exact hg a rfl

theorem map {g : α → β} (he : FailsWith P e) : FailsWith P (e.map g) := by
  rcases e with f | a
  · exact error (he f rfl)
  · exact ok

theorem mapM {g : α → Except Fault β} : ∀ {xs : List α}, (∀ x ∈ xs, FailsWith P (g x)) → FailsWith P (xs.mapM g)
  | [], _ => by
    rw [List.mapM_nil]
    exact ok
  | x :: xs, h => by
    rw [List.mapM_cons]
    exact (h x List.mem_cons_self).bind fun _ _ =>
      (mapM fun y hy => h y (List.mem_cons_of_mem _ hy)).bind fun _ _ => ok

theorem ite (c : Prop) [Decidable c] {e' : Except Fault α} (he : FailsWith P e) (he' : FailsWith P e') :
    FailsWith P (if c then e else e') := by
  split
  · exact he
  · exact he'

/-- Steps that keep something, and fail in some way while it holds, fail in that way. -/
theorem foldlM {I : β → Prop} {g : β → α → Except Fault β} : ∀ {xs : List α} {b : β}, I b →
    (∀ b, I b → ∀ x ∈ xs, FailsWith P (g b x) ∧ ∀ b', g b x = .ok b' → I b') → FailsWith P (xs.foldlM g b)
  | [], _, _, _ => ok
  | x :: xs, b, hb, step => by
    rw [List.foldlM_cons]
    obtain ⟨fails, keeps⟩ := step b hb x List.mem_cons_self
    exact fails.bind fun b' hb' => foldlM (keeps b' hb') fun b hb y hy => step b hb y (List.mem_cons_of_mem _ hy)

end FailsWith

/-- A fault that refuses the declaration of a schema. -/
def Fault.IsSchemaError (f : Fault) : Prop := ∃ r, f = .refused r ∧ r.kind.isSchemaError = true

/-! ### What a shape is made of -/

mutual

/-- The shape and all shapes in it. -/
def Shape.levels : Shape → List Shape
  | .mk kind rules type inner keys target cases tag =>
    .mk kind rules type inner keys target cases tag ::
      (Shape.innerLevels inner ++ Shape.innerLevels keys ++ Shape.choiceLevels cases)

def Shape.innerLevels : Option Shape → List Shape
  | none => []
  | some s => s.levels

def Shape.choiceLevels : Option (List (Value × Payload)) → List Shape
  | none => []
  | some cases => Shape.caseLevels cases

def Shape.caseLevels : List (Value × Payload) → List Shape
  | [] => []
  | (_, payload) :: rest => Payload.levels payload ++ Shape.caseLevels rest

def Payload.levels : Payload → List Shape
  | .shape s => s.levels
  | .target _ => []

end

namespace Shape

/-- The types of the scalars in some levels. -/
def typesOf (levels : List Shape) : List Value := (levels.filter fun l => l.kind = .scalar).map type

/-- The names of the cases in some levels. -/
def caseNamesOf (levels : List Shape) : List Value := levels.flatMap fun l => (l.cases.getD []).map Prod.fst

/-- The parameters of the rules in some levels. -/
def paramsOf (levels : List Shape) : List Value := levels.flatMap fun l => l.rules.map Rule.param

end Shape

/-- What a builder does not catch, by the scalar types, the names of cases and the parameters of a declaration. -/
inductive Uncaught (types names params : List Value) : Fault → Prop where
  | noClass {type} (ht : type ∈ types) (present : type ≠ .absent) (hc : ∀ c attributes, type ≠ .cls c attributes) :
    Uncaught types names params .notAClass
  | anyClass {attributes} (ht : Value.cls .any attributes ∈ types) : Uncaught types names params .anyInstance
  | nameless {type} (ht : type ∈ types) (present : type ≠ .absent) (hn : type.declaredName? = none) :
    Uncaught types names params (.lacking type "__name__")
  | caseName {name} (position : Nat) (hm : name ∈ names) (hn : name.asText? = none) :
    Uncaught types names params (.joinItem position name.fullName)
  | undefinedBound {p q} (hp : p ∈ params) (hq : q ∈ params) (hlt : p.lt q = .error .undefinedDecimal) :
    Uncaught types names params .undefinedDecimal
  | unreadable {p source e} (hp : p ∈ params) (hs : p.asText? = some source)
    (hr : Regex.compile source.toList {} = .error e) (he : e.crash?.isSome = true) :
    Uncaught types names params (Check.regexFault source e)

theorem Uncaught.mono {types types' names names' params params' : List Value} {f : Fault} (uncaught : Uncaught types names params f)
    (ht : ∀ t ∈ types, t ≠ .absent → t ∈ types') (hn : names ⊆ names') (hp : params ⊆ params') :
    Uncaught types' names' params' f := by
  cases uncaught with
  | noClass h present hc => exact .noClass (ht _ h present) present hc
  | anyClass h => exact .anyClass (ht _ h nofun)
  | nameless h present hd => exact .nameless (ht _ h present) present hd
  | caseName position h hd => exact .caseName position (hn h) hd
  | undefinedBound h h' hlt => exact .undefinedBound (hp h) (hp h') hlt
  | unreadable h hs hr he => exact .unreadable (hp h) hs hr he

theorem Value.unorderedFault_isTypeFault (a b : Value) : (unorderedFault a b).isTypeFault = true := by
  unfold unorderedFault
  split <;> rfl

/-- A question of order fails for the types of its sides, or at an undefined decimal. -/
def OrderFault (f : Fault) : Prop := f.isTypeFault = true ∨ f = .undefinedDecimal

namespace Value

theorem scalarLt_fails (a b : Value) : FailsWith OrderFault (scalarLt a b) := by
  have unordered : FailsWith OrderFault (.error (unorderedFault a b) : Except Fault Bool) :=
    .error (.inl (unorderedFault_isTypeFault a b))
  unfold scalarLt
  split
  · unfold numberLt
    exact .ite _ (.error (Or.inr rfl)) .ok
  · split
    · exact .ok
    · split
      · exact .ok
      · exact unordered
    · exact .ok
    · exact .ok
    · split
      · exact .ok
      · exact unordered

mutual

theorem lt_fails : ∀ a b : Value, FailsWith OrderFault (lt a b)
  | .sequence k xs, b => by
    rw [lt.eq_def]
    dsimp only
    split
    · exact .ite _ (ltItems_fails xs _) (.error (.inl (unorderedFault_isTypeFault _ _)))
    · exact .error (.inl (unorderedFault_isTypeFault _ _))
  | .absent, b | .bool _, b | .int _, b | .float _, b | .complex _, b | .decimal _, b | .fraction _ _, b | .date _, b
  | .moment _, b | .text _, b | .bytes _ _, b | .range _ _ _, b | .pattern _ _, b | .bag _ _, b | .set _ _, b
  | .mapping _ _, b | .member _ _ _, b | .function _, b | .cls _ _, b | .object _ _ _ _, b | .record _ _, b => by
    rw [lt]
    · exact scalarLt_fails _ b
    · nofun

theorem ltItems_fails : ∀ xs ys : List Value, FailsWith OrderFault (ltItems xs ys)
  | _, [] => by
    rw [ltItems]
    exact .ok
  | [], _ :: _ => by
    rw [ltItems]
    exact .ok
  | x :: xs, y :: ys => by
    rw [ltItems]
    split
    · exact ltItems_fails xs ys
    · exact lt_fails x y

end

theorem flip_isTypeFault {f : Fault} (h : f.isTypeFault = true) : f.flip.isTypeFault = true := by
  unfold Fault.flip
  split
  · rfl
  · exact h

theorem gt_fails {a b : Value} {f : Fault} (h : a.gt b = .error f) :
    f.isTypeFault = true ∨ f = .undefinedDecimal ∧ b.lt a = .error .undefinedDecimal := by
  unfold gt at h
  rcases hlt : b.lt a with g | r
  · rw [hlt] at h
    cases h
    obtain hg | rfl := lt_fails b a g hlt
    · exact .inl (flip_isTypeFault hg)
    · exact .inr ⟨rfl, rfl⟩
  · rw [hlt] at h
    cases h

end Value

/-! ### Parameters -/

namespace ParameterCheck
variable {types names params : List Value} {param type : Value} {shape : Shape}

theorem requireClass_fails (ht : type = .absent ∨ type ∈ types) (present : type ≠ .absent) :
    FailsWith (Uncaught types names params) (requireClass type) := by
  unfold requireClass
  split
  · exact .ok
  · next hc => exact .error (.noClass (ht.resolve_left present) present hc)

theorem suits_fails (ht : type = .absent ∨ type ∈ types) : FailsWith (Uncaught types names params) (suits param type) := by
  unfold suits
  split
  · exact .ok
  · next present =>
    refine (requireClass_fails ht present).bind fun c hc => ?_
    have hcls : ∃ attributes, type = .cls c attributes := by
      unfold requireClass at hc
      split at hc
      · cases hc
        exact ⟨_, rfl⟩
      · cases hc
    obtain ⟨attributes, rfl⟩ := hcls
    refine .ite _ .ok (.ite _ .ok ?_)
    split
    · exact .ok
    · next hi =>
      cases Value.isInstance?_eq_none.mp hi
      exact .error (.anyClass (ht.resolve_left (by simp)))

theorem checkOrdinal_fails (ht : shape.declaredType = .absent ∨ shape.declaredType ∈ types) (hp : param ∈ params) :
    FailsWith (Uncaught types names params) (checkOrdinal param shape) := by
  unfold checkOrdinal
  refine .ite _ .ok ((suits_fails ht).bind fun suited _ => .ite _ .ok ?_)
  split
  · exact .ok
  · next f hlt =>
    split
    · exact .ok
    · next hf =>
      -- The parameter was compared with itself, so one value is on both sides of the order.
      obtain hf' | rfl := Value.lt_fails param param f hlt
      · exact (hf hf').elim
      · exact .error (.undefinedBound hp hp hlt)

theorem checkEqual_fails (ht : shape.declaredType = .absent ∨ shape.declaredType ∈ types) :
    FailsWith (Uncaught types names params) (checkEqual param shape) := by
  unfold checkEqual
  exact (suits_fails ht).bind fun suited _ => .ite _ .ok .ok

theorem requireName_fails (ht : type = .absent ∨ type ∈ types) (present : type ≠ .absent) :
    FailsWith (Uncaught types names params) type.requireName := by
  unfold Value.requireName
  split
  · exact .ok
  · next hn => exact .error (.nameless (ht.resolve_left present) present hn)

theorem checkLength_fails (ht : shape.declaredType = .absent ∨ shape.declaredType ∈ types) :
    FailsWith (Uncaught types names params) (checkLength param shape) := by
  unfold checkLength
  dsimp only
  refine .ite _ .ok ?_
  split
  · next present =>
    refine (requireName_fails ht fun absent => ?_).bind fun _ _ => .ok
    simp [absent, Value.isAbsent] at present
  · exact .ok

theorem isTextClass_fails (ht : type = .absent ∨ type ∈ types) : FailsWith (Uncaught types names params) (isTextClass type) := by
  unfold isTextClass
  split
  · exact .ok
  · next present => exact (requireClass_fails ht present).map

/-- Checking a pattern fails only where the type cannot be asked for, or where the pattern cannot be read. -/
theorem checkPattern_fails_of {P : Fault → Prop} (textual : FailsWith P (isTextClass shape.declaredType))
    (unread : ∀ source e, param.asText? = some source → Regex.compile source.toList {} = .error e →
      e.crash?.isSome = true → P (Check.regexFault source e)) : FailsWith P (checkPattern param shape) := by
  have asked (problem : Option String) : FailsWith P
      (if problem.isSome then .ok problem else isTextClass shape.declaredType >>= fun textual => if textual then .ok none
        else .ok (some ("pattern cannot apply to values of type " ++ shape.declaredType.typeLabel))) :=
    .ite _ .ok (textual.bind fun _ _ => .ite _ .ok .ok)
  unfold checkPattern
  split
  · exact asked none
  · split
    · exact asked (some _)
    · next source hs =>
      split
      · exact asked none
      · next e hr =>
        split
        · next he => exact .error (unread source e hs hr he)
        · exact asked (some _)

theorem checkPattern_fails (ht : shape.declaredType = .absent ∨ shape.declaredType ∈ types) (hp : param ∈ params) :
    FailsWith (Uncaught types names params) (checkPattern param shape) :=
  checkPattern_fails_of (isTextClass_fails ht) fun _ _ hs hr he => .unreadable hp hs hr he

/-- A parameter check of the engine says what is wrong, or it meets a gap. -/
theorem run_fails {h : Host} {c : ParameterCheck} (engine : ∀ g, c ≠ .custom g)
    (ht : shape.declaredType = .absent ∨ shape.declaredType ∈ types) (hp : param ∈ params) :
    FailsWith (Uncaught types names params) (c.run h param shape) := by
  unfold run answer
  refine FailsWith.map ?_
  cases c with
  | ordinal => exact (checkOrdinal_fails ht hp).map
  | equal => exact (checkEqual_fails ht).map
  | length => exact (checkLength_fails ht).map
  | pattern => exact (checkPattern_fails ht hp).map
  | predicate | oneOf => exact .ok
  | custom g => exact (engine g rfl).elim

end ParameterCheck

/-! ### Levels -/

namespace Shape

theorem mem_typesOf {levels : List Shape} {t : Value} : t ∈ typesOf levels ↔ ∃ l ∈ levels, l.kind = .scalar ∧ l.type = t := by
  simp [typesOf, and_assoc]

theorem mem_caseNamesOf {levels : List Shape} {name : Value} :
    name ∈ caseNamesOf levels ↔ ∃ l ∈ levels, name ∈ (l.cases.getD []).map Prod.fst := by
  simp [caseNamesOf]

theorem mem_paramsOf {levels : List Shape} {p : Value} : p ∈ paramsOf levels ↔ ∃ l ∈ levels, ∃ r ∈ l.rules, r.param = p := by
  simp [paramsOf]

theorem self_mem_levels (s : Shape) : s ∈ s.levels := by
  cases s
  rw [levels]
  exact List.mem_cons_self

theorem mem_levels {kind : FieldKind} {rules : List Rule} {type : Value} {inner keys : Option Shape} {target : Target}
    {cases : Option (List (Value × Payload))} {tag : Value} {l : Shape} :
    l ∈ (Shape.mk kind rules type inner keys target cases tag).levels ↔
      l = .mk kind rules type inner keys target cases tag ∨ l ∈ innerLevels inner ∨ l ∈ innerLevels keys ∨
        l ∈ choiceLevels cases := by
  rw [levels]
  simp

mutual

/-- The levels of a level are levels of the shape. -/
theorem levels_subset : ∀ {s l : Shape}, l ∈ s.levels → l.levels ⊆ s.levels
  | .mk kind rules type inner keys target cases tag, l, hl => by
    intro l' hl'
    rcases mem_levels.mp hl with rfl | hl | hl | hl
    · exact hl'
    · exact mem_levels.mpr (.inr (.inl (innerLevels_subset hl hl')))
    · exact mem_levels.mpr (.inr (.inr (.inl (innerLevels_subset hl hl'))))
    · exact mem_levels.mpr (.inr (.inr (.inr (choiceLevels_subset hl hl'))))

theorem innerLevels_subset : ∀ {inner : Option Shape} {l : Shape}, l ∈ innerLevels inner → l.levels ⊆ innerLevels inner
  | none, l, hl => by simp [innerLevels] at hl
  | some s, l, hl => by
    rw [innerLevels] at hl ⊢
    exact levels_subset hl

theorem choiceLevels_subset : ∀ {cases : Option (List (Value × Payload))} {l : Shape}, l ∈ choiceLevels cases →
    l.levels ⊆ choiceLevels cases
  | none, l, hl => by simp [choiceLevels] at hl
  | some cases, l, hl => by
    rw [choiceLevels] at hl ⊢
    exact caseLevels_subset hl

theorem caseLevels_subset : ∀ {cases : List (Value × Payload)} {l : Shape}, l ∈ caseLevels cases →
    l.levels ⊆ caseLevels cases
  | [], l, hl => by simp [caseLevels] at hl
  | (name, payload) :: rest, l, hl => by
    rw [caseLevels] at hl ⊢
    rcases List.mem_append.mp hl with hl | hl
    · exact List.subset_append_of_subset_left _ (payloadLevels_subset hl)
    · exact List.subset_append_of_subset_right _ (caseLevels_subset hl)

theorem payloadLevels_subset : ∀ {payload : Payload} {l : Shape}, l ∈ payload.levels → l.levels ⊆ payload.levels
  | .shape s, l, hl => by
    rw [Payload.levels] at hl ⊢
    exact levels_subset hl
  | .target t, l, hl => by simp [Payload.levels] at hl

end

/-- What a rule sees is the type of a scalar in the shape. -/
theorem declaredType_mem : ∀ s : Shape, s.declaredType = .absent ∨ s.declaredType ∈ typesOf s.levels
  | .mk .scalar rules type inner keys target cases tag =>
    .inr <| mem_typesOf.mpr ⟨_, self_mem_levels _, rfl, rfl⟩
  | .mk .optional rules type (some s) keys target cases tag => by
    rw [declaredType]
    refine (declaredType_mem s).imp_right fun h => ?_
    obtain ⟨l, hl, hk⟩ := mem_typesOf.mp h
    exact mem_typesOf.mpr ⟨l, mem_levels.mpr (.inr (.inl (by rwa [innerLevels]))), hk⟩
  | .mk .optional rules type none keys target cases tag => .inl rfl
  | .mk .sequence rules type inner keys target cases tag | .mk .mapping rules type inner keys target cases tag
  | .mk .nested rules type inner keys target cases tag | .mk .enum rules type inner keys target cases tag => .inl rfl

/-- Placing a rule adds it to one level, which may be new. -/
theorem Places.levels {kinds : List FieldKind} {rule : Rule} {s placed : Shape} (h : Places kinds rule s placed) :
    ∀ l' ∈ placed.levels, (∃ l ∈ s.levels, l'.kind = l.kind ∧ l'.type = l.type ∧ l'.cases = l.cases ∧
      ∀ r ∈ l'.rules, r ∈ l.rules ∨ r = rule) ∨ l' = scalar .absent [rule] := by
  have kept {s l : Shape} (hl : l ∈ s.levels) : ∃ l' ∈ s.levels, l.kind = l'.kind ∧ l.type = l'.type ∧
      l.cases = l'.cases ∧ ∀ r ∈ l.rules, r ∈ l'.rules ∨ r = rule := ⟨l, hl, rfl, rfl, rfl, fun _ => .inl⟩
  induction h with
  | here =>
    intro l' hl
    rcases mem_levels.mp hl with rfl | hl
    · exact .inl ⟨_, self_mem_levels _, rfl, rfl, rfl, fun r hr => by simpa [Shape.rules] using hr⟩
    · exact .inl (kept (mem_levels.mpr (.inr hl)))
  | inside _ _ _ ih =>
    intro l' hl
    rcases mem_levels.mp hl with rfl | hl | hl
    · exact .inl ⟨_, self_mem_levels _, rfl, rfl, rfl, fun _ => .inl⟩
    · rw [innerLevels] at hl
      rcases ih l' hl with ⟨l, hl, same⟩ | new
      · exact .inl ⟨l, mem_levels.mpr (.inr (.inl (by rwa [innerLevels]))), same⟩
      · exact .inr new
    · exact .inl (kept (mem_levels.mpr (.inr (.inr hl))))
  | fresh =>
    intro l' hl
    rcases mem_levels.mp hl with rfl | hl | hl
    · exact .inl ⟨_, self_mem_levels _, rfl, rfl, rfl, fun _ => .inl⟩
    · rw [innerLevels] at hl
      have alone : (scalar .absent [rule]).levels = [scalar .absent [rule]] := by
        simp [scalar, Shape.levels, innerLevels, choiceLevels]
      rw [alone] at hl
      exact .inr (List.mem_singleton.mp hl)
    · exact .inl (kept (mem_levels.mpr (.inr (.inr hl))))

end Shape

/-- The faults of a declaration with some levels and more parameters: refusals, and what its gaps let through. -/
def Escapes (levels : List Shape) (params : List Value) (f : Fault) : Prop :=
  f.IsSchemaError ∨ Uncaught (Shape.typesOf levels) (Shape.caseNamesOf levels) (Shape.paramsOf levels ++ params) f

/-- Levels that have nothing but what other levels have, and more parameters. -/
structure Within (levels levels' : List Shape) (params : List Value) : Prop where
  types {t} : t ∈ Shape.typesOf levels' → t ≠ .absent → t ∈ Shape.typesOf levels
  names : Shape.caseNamesOf levels' ⊆ Shape.caseNamesOf levels
  params : Shape.paramsOf levels' ⊆ Shape.paramsOf levels ++ params

section Within
variable {levels levels' levels'' : List Shape} {params params' : List Value} {f : Fault}

theorem Within.of_subset (sub : levels' ⊆ levels) : Within levels levels' params where
  types ht _ := by
    obtain ⟨l, hl, hk⟩ := Shape.mem_typesOf.mp ht
    exact Shape.mem_typesOf.mpr ⟨l, sub hl, hk⟩
  names _ hname := by
    obtain ⟨l, hl, hm⟩ := Shape.mem_caseNamesOf.mp hname
    exact Shape.mem_caseNamesOf.mpr ⟨l, sub hl, hm⟩
  params _ hp := by
    obtain ⟨l, hl, r, hr⟩ := Shape.mem_paramsOf.mp hp
    exact List.mem_append_left _ (Shape.mem_paramsOf.mpr ⟨l, sub hl, r, hr⟩)

theorem Within.trans (within : Within levels levels' params) (within' : Within levels' levels'' params) :
    Within levels levels'' params where
  types ht present := within.types (within'.types ht present) present
  names := List.Subset.trans within'.names within.names
  params _ hp := (List.mem_append.mp (within'.params hp)).elim (within.params ·) (List.mem_append_right _)

theorem Escapes.within (escapes : Escapes levels' params' f) (within : Within levels levels' params)
    (sub : params' ⊆ params) : Escapes levels params f :=
  escapes.imp_right fun uncaught => uncaught.mono (fun _ => within.types) within.names fun _ hp =>
    (List.mem_append.mp hp).elim (within.params ·) fun hp => List.mem_append_right _ (sub hp)

theorem Within.place {kinds : List FieldKind} {rule : Rule} {s placed : Shape} (h : Shape.Places kinds rule s placed)
    (hr : rule.param ∈ params) : Within s.levels placed.levels params where
  types {t} ht present := by
    obtain ⟨l', hl', hk, rfl⟩ := Shape.mem_typesOf.mp ht
    rcases h.levels l' hl' with ⟨l, hl, kind, type, -⟩ | rfl
    · exact Shape.mem_typesOf.mpr ⟨l, hl, kind ▸ hk, type.symm⟩
    · exact (present rfl).elim
  names name hname := by
    obtain ⟨l', hl', hm⟩ := Shape.mem_caseNamesOf.mp hname
    rcases h.levels l' hl' with ⟨l, hl, -, -, cases, -⟩ | rfl
    · exact Shape.mem_caseNamesOf.mpr ⟨l, hl, cases ▸ hm⟩
    · cases hm
  params p hp := by
    obtain ⟨l', hl', r, hr', rfl⟩ := Shape.mem_paramsOf.mp hp
    rcases h.levels l' hl' with ⟨l, hl, -, -, -, rules⟩ | rfl
    · rcases rules r hr' with hr' | rfl
      · exact List.mem_append_left _ (Shape.mem_paramsOf.mpr ⟨l, hl, r, hr', rfl⟩)
      · exact List.mem_append_right _ hr
    · cases List.mem_singleton.mp hr'
      exact List.mem_append_right _ hr

end Within

/-! ### Descriptions -/

theorem joinTexts_fails {separator : String} {items types params : List Value} :
    FailsWith (Uncaught types items params) (joinTexts separator items) := by
  unfold joinTexts
  refine (FailsWith.mapM fun (v, i) hx => ?_).bind fun _ _ => .ok
  dsimp only
  split
  · exact .ok
  · next hn => exact .error (.caseName i (List.fst_mem_of_mem_zipIdx hx) hn)

/-- A description names the types and the cases of a shape. -/
theorem Shape.describe_fails : ∀ s : Shape, FailsWith (Uncaught (typesOf s.levels) (caseNamesOf s.levels) []) s.describe
  | .mk .scalar rules type inner keys target cases tag => by
    rw [describe]
    split
    · next truthy =>
      have present : type ≠ .absent := by
        rintro rfl
        cases truthy
      have here : type ∈ typesOf (Shape.mk .scalar rules type inner keys target cases tag).levels :=
        mem_typesOf.mpr ⟨_, self_mem_levels _, rfl, rfl⟩
      exact ParameterCheck.requireName_fails (.inr here) present
    · exact .ok
  | .mk .nested rules type inner keys target cases tag => .ok
  | .mk .enum rules type inner keys target cases tag => by
    rw [describe]
    refine FailsWith.map (joinTexts_fails.imp fun f uncaught => uncaught.mono (fun _ h _ => h) ?_ (List.Subset.refl _))
    exact fun name hname => mem_caseNamesOf.mpr ⟨_, self_mem_levels _, hname⟩
  | .mk .optional rules type none keys target cases tag | .mk .sequence rules type none keys target cases tag
  | .mk .mapping rules type none keys target cases tag => .ok
  | .mk .optional rules type (some s) keys target cases tag | .mk .sequence rules type (some s) keys target cases tag
  | .mk .mapping rules type (some s) keys target cases tag => by
    change FailsWith _ (s.describe.map _)
    refine FailsWith.map ((describe_fails s).imp fun f uncaught => ?_)
    have within (kind : FieldKind) : Within (Shape.mk kind rules type (some s) keys target cases tag).levels s.levels [] :=
      .of_subset fun l hl => mem_levels.mpr (.inr (.inl (by rwa [innerLevels])))
    exact uncaught.mono (fun _ => (within _).types) (within _).names (List.Subset.refl _)

/-! ### Compiling -/

namespace BoundRule

theorem boundPair_some {first second lower upper : BoundRule} (h : boundPair first second = some (lower, upper)) :
    first = lower ∧ second = upper ∨ second = lower ∧ first = upper := by
  unfold boundPair at h
  split at h
  · split at h
    · cases h
      exact .inl ⟨rfl, rfl⟩
    · split at h <;> cases h
      exact .inr ⟨rfl, rfl⟩
  · cases h

/-- Two rules of a level conflict, or their order is undefined. -/
theorem checkPair_fails {P : Fault → Prop} {earlier rule : BoundRule} {site : Site} (refused : ∀ f, f.IsSchemaError → P f)
    (order : ∀ lower upper, boundPair earlier rule = some (lower, upper) →
      upper.param.lt lower.param = .error .undefinedDecimal → P .undefinedDecimal) :
    FailsWith P (checkPair earlier rule site) := by
  unfold checkPair
  refine .ite _ (.error (refused _ ⟨_, rfl, rfl⟩)) (.ite _ (.error (refused _ ⟨_, rfl, rfl⟩)) ?_)
  unfold checkBounds
  split
  · exact .ok
  · next lower upper hpair =>
    split
    · exact .ok
    · exact .error (refused _ ⟨_, rfl, rfl⟩)
    · next f hgt =>
      rcases Value.gt_fails hgt with hf | ⟨rfl, hlt⟩
      · rw [if_pos hf]
        exact .error (refused _ ⟨_, rfl, rfl⟩)
      · exact .error (order lower upper hpair hlt)

theorem checkAgainst_fails {P : Fault → Prop} {rule : BoundRule} {site : Site} : ∀ {before : List BoundRule},
    (∀ earlier ∈ before, FailsWith P (checkPair earlier rule site)) → FailsWith P (rule.checkAgainst site before)
  | [], _ => .ok
  | earlier :: rest, pair => by
    rw [checkAgainst]
    split
    · next f hf => exact .error (pair _ List.mem_cons_self f hf)
    · exact checkAgainst_fails fun r h => pair r (List.mem_cons_of_mem _ h)

theorem checkConflicts_fails {P : Fault → Prop} {Q : BoundRule → Prop} {site : Site}
    (pair : ∀ a b, Q a → Q b → FailsWith P (checkPair a b site)) : ∀ {rules before : List BoundRule},
      (∀ r ∈ before ++ rules, Q r) → FailsWith P (checkConflicts site before rules)
  | [], _, _ => .ok
  | rule :: rest, before, each => by
    rw [checkConflicts]
    split
    · next f hf =>
      have fails := checkAgainst_fails fun r hr => pair r rule (each r (List.mem_append_left _ hr)) (each rule (by simp))
      exact .error (fails f hf)
    · exact checkConflicts_fails pair fun r hr => each r (by simpa using hr)

end BoundRule

namespace Workshop
variable {w : Workshop} {site : Site}

theorem lookUp_fails {name : String} : FailsWith Fault.IsSchemaError (w.lookUp name site) := by
  unfold lookUp
  split
  · exact .ok
  · exact .error ⟨_, rfl, rfl⟩

theorem checkTarget_fails {target : Target} : FailsWith Fault.IsSchemaError (w.checkTarget target site) := by
  unfold checkTarget
  split
  · exact .ok
  · exact .error ⟨_, rfl, rfl⟩
  · exact .ite _ .ok (.error ⟨_, rfl, rfl⟩)

theorem checkScalarType_fails {type : Value} : FailsWith Fault.IsSchemaError (checkScalarType type site) := by
  unfold checkScalarType
  split
  · exact .ok
  · exact .ok
  · exact .error ⟨_, rfl, rfl⟩

section Levels
variable {P : Fault → Prop}

/-- Binding a rule refuses it, unless its parameter cannot be resolved or checked. -/
theorem bindRule_fails_of (refused : ∀ f, f.IsSchemaError → P f) {shape : Shape} {rule : Rule}
    (resolved : ∀ f ∈ w.table.functions, f.name = rule.name → FailsWith P (w.resolve f rule.param))
    (checked : ∀ f ∈ w.table.functions, f.name = rule.name → ∀ param, w.resolve f rule.param = .ok param →
      ∀ c, f.checkParam = some c → FailsWith P (c.run w.host param shape)) :
    FailsWith P (w.bindRule shape site rule) := by
  rw [bindRule_eq]
  refine (lookUp_fails.imp refused).bind fun f hf => .ite _ ?_ (.error (refused _ ⟨_, rfl, rfl⟩))
  have there := mem_of_lookUp hf
  have name := name_of_lookUp hf
  unfold bound
  refine (resolved f there name).bind fun param hparam => ?_
  split
  · exact .ok
  · next check hcheck =>
    refine (checked f there name param hparam check hcheck).bind fun problem _ => ?_
    split
    · exact .ok
    · exact .error (refused _ ⟨_, rfl, rfl⟩)

mutual

/-- Compiling a shape refuses it, unless binding the rules of one of its levels fails. -/
theorem compile_fails_of (refused : ∀ f, f.IsSchemaError → P f) : ∀ (site : Site) (s : Shape), (∀ l ∈ s.levels, ∀ site, FailsWith P (w.bindRules l site [])) →
    FailsWith P (w.compile site s)
  | site, .mk kind rules type inner keys target cases tag, each => by
    have inside {levels : List Shape}
        (sub : ∀ l ∈ levels, l ∈ Shape.innerLevels inner ∨ l ∈ Shape.innerLevels keys ∨ l ∈ Shape.choiceLevels cases) :
        ∀ l ∈ levels, ∀ site, FailsWith P (w.bindRules l site []) :=
      fun l hl => each l (Shape.mem_levels.mpr (.inr (sub l hl)))
    rw [compile]
    -- The rules of a level are bound before anything else of it is looked at.
    refine (each _ (Shape.self_mem_levels _) site).bind fun bound _ => ?_
    cases kind with
    | scalar => exact (checkScalarType_fails.imp refused).bind fun _ _ => .ok
    | optional | sequence | mapping =>
      exact (compileInner_fails_of refused site inner (inside fun l => .inl)).bind fun _ _ =>
        (compileKeys_fails_of refused site keys (inside fun l hl => .inr (.inl hl))).bind fun _ _ => .ok
    | nested => exact (checkTarget_fails.imp refused).bind fun _ _ => .ok
    | enum =>
      rcases cases with _ | _ | ⟨c, cases⟩
      · exact .error (refused _ ⟨_, rfl, rfl⟩)
      · exact .error (refused _ ⟨_, rfl, rfl⟩)
      · refine (compileCases_fails_of refused site (c :: cases) [] (inside fun l hl => .inr (.inr ?_))).bind fun _ _ => .ok
        rwa [Shape.choiceLevels]

theorem compileInner_fails_of (refused : ∀ f, f.IsSchemaError → P f) : ∀ (site : Site) (inner : Option Shape),
    (∀ l ∈ Shape.innerLevels inner, ∀ site, FailsWith P (w.bindRules l site [])) → FailsWith P (w.compileInner site inner)
  | _, none, _ => .ok
  | site, some s, each => by
    rw [compileInner]
    rw [Shape.innerLevels] at each
    exact compile_fails_of refused site s each

theorem compileKeys_fails_of (refused : ∀ f, f.IsSchemaError → P f) : ∀ (site : Site) (keys : Option Shape),
    (∀ l ∈ Shape.innerLevels keys, ∀ site, FailsWith P (w.bindRules l site [])) → FailsWith P (w.compileKeys site keys)
  | _, none, _ => .ok
  | site, some s, each => by
    rw [compileKeys]
    rw [Shape.innerLevels] at each
    exact (compile_fails_of refused site s each).bind fun _ _ => .ok

theorem compileCases_fails_of (refused : ∀ f, f.IsSchemaError → P f) : ∀ (site : Site) (cases : List (Value × Payload)) (done : List (Value × Option Node)),
    (∀ l ∈ Shape.caseLevels cases, ∀ site, FailsWith P (w.bindRules l site [])) →
      FailsWith P (w.compileCases site cases done)
  | _, [], _, _ => .ok
  | site, (name, payload) :: rest, done, each => by
    rw [compileCases]
    rw [Shape.caseLevels] at each
    exact (compilePayload_fails_of refused _ payload fun l hl => each l (List.mem_append_left _ hl)).bind fun node _ =>
      compileCases_fails_of refused site rest _ fun l hl => each l (List.mem_append_right _ hl)

theorem compilePayload_fails_of (refused : ∀ f, f.IsSchemaError → P f) : ∀ (site : Site) (payload : Payload),
    (∀ l ∈ payload.levels, ∀ site, FailsWith P (w.bindRules l site [])) → FailsWith P (w.compilePayload site payload)
  | site, .shape s, each => by
    rw [compilePayload]
    rw [Payload.levels] at each
    exact (compile_fails_of refused site s each).bind fun _ _ => .ok
  | site, .target t, _ => by
    unfold compilePayload
    split
    · next heq => cases heq
    · exact .ok
    · split
      · split <;> exact .ok
      · exact (checkTarget_fails.imp refused).bind fun _ _ => .ok

end

end Levels

variable (resolver : w.resolver = none) (engine : w.table.functions = FunctionTable.builtins)
include resolver engine

theorem bindRule_fails {shape : Shape} {rule : Rule} (hr : rule ∈ shape.rules) :
    FailsWith (Escapes shape.levels []) (w.bindRule shape site rule) := by
  have hparam : rule.param ∈ Shape.paramsOf shape.levels ++ [] := by
    rw [List.append_nil]
    exact Shape.mem_paramsOf.mpr ⟨shape, shape.self_mem_levels, rule, hr, rfl⟩
  refine bindRule_fails_of (fun f => .inl) (fun f _ _ => resolve_eq resolver f rule.param ▸ .ok)
    fun f hf _ param resolved check hcheck => ?_
  cases (resolve_eq resolver f rule.param).symm.trans resolved
  have builtin := FunctionTable.checkParam_builtins (engine ▸ hf)
  exact (ParameterCheck.run_fails (fun g hg => builtin g (hg ▸ hcheck)) shape.declaredType_mem hparam).imp fun f => .inr

theorem bindRules_fails {shape : Shape} {existing : List BoundRule} :
    FailsWith (Escapes shape.levels (existing.map BoundRule.param)) (w.bindRules shape site existing) := by
  unfold bindRules
  refine (FailsWith.mapM fun rule hr => (bindRule_fails resolver engine hr).imp fun f escapes =>
    escapes.within (.of_subset (List.Subset.refl _)) nofun).bind fun bound hbound => ?_
  refine (BoundRule.checkConflicts_fails
    (Q := fun r => r.param ∈ Shape.paramsOf shape.levels ++ existing.map BoundRule.param) (fun a b ha hb => ?_)
    fun r hr => ?_).bind fun _ _ => .ok
  · refine BoundRule.checkPair_fails (fun f => .inl) fun lower upper hpair hlt => .inr ?_
    rcases BoundRule.boundPair_some hpair with ⟨rfl, rfl⟩ | ⟨rfl, rfl⟩
    · exact .undefinedBound hb ha hlt
    · exact .undefinedBound ha hb hlt
  · rw [List.nil_append] at hr
    rcases List.mem_append.mp hr with hr | hr
    · exact List.mem_append_right _ (List.mem_map_of_mem hr)
    · obtain ⟨rule, hrule, hr⟩ := mem_mapM hbound hr
      have same : r.param = rule.param := congrArg Rule.param (bindRule_declared resolver hr)
      rw [same]
      exact List.mem_append_left _ (Shape.mem_paramsOf.mpr ⟨shape, shape.self_mem_levels, rule, hrule, rfl⟩)

/-- Compiling a shape refuses it, unless it meets a gap. -/
theorem compile_fails (site : Site) (s : Shape) : FailsWith (Escapes s.levels []) (w.compile site s) :=
  compile_fails_of (fun _ => .inl) site s fun _ hl _ => (bindRules_fails resolver engine).imp fun _ escapes =>
    escapes.within (.of_subset (Shape.levels_subset hl)) nofun

end Workshop

/-! ### Declaring -/

namespace SchemaBuilder
variable {b : SchemaBuilder} {h : Host} {t : FunctionTable} {site : Site}

theorem malformed_fails {α : Type} {e : Except Fault α} : FailsWith Fault.IsSchemaError (malformed site e) := by
  rcases e with f | a
  · exact .error ⟨_, rfl, rfl⟩
  · exact .ok

theorem placeRule_fails {P : Fault → Prop} (refused : ∀ f, f.IsSchemaError → P f) {w : Workshop} {shape : Shape} {rule : Rule}
    (described : FailsWith P shape.describe) : FailsWith P (placeRule site w shape rule) := by
  unfold placeRule
  refine (Workshop.lookUp_fails.imp refused).bind fun f _ => ?_
  split
  · exact .ok
  · exact described.bind fun described _ => .error (refused _ ⟨_, rfl, rfl⟩)

/-- Making the node of a field places rules on a shape and compiles it; what placing them keeps holds of what is
described and compiled. -/
theorem fieldNode_fails_of {P : Fault → Prop} (refused : ∀ f, f.IsSchemaError → P f) {I : Shape → Prop} {shape : Shape}
    {rules : List Rule} (start : I shape) (described : ∀ s, I s → FailsWith P s.describe)
    (placed : ∀ s, I s → ∀ rule ∈ rules, ∀ s', placeRule site (b.workshop h t) s rule = .ok s' → I s')
    (compiled : ∀ s, I s → FailsWith P ((b.workshop h t).compile site s)) :
    FailsWith P (b.fieldNode h t site shape rules) := by
  unfold fieldNode
  refine (FailsWith.foldlM start fun s hs rule hr => ⟨?_, placed s hs rule hr⟩).bind fun s hs => ?_
  · exact placeRule_fails refused (described s hs)
  · exact compiled s (foldlM_invariant placed start hs)

variable (resolver : b.resolver = none) (engine : t.functions = FunctionTable.builtins)
include resolver engine

theorem fieldNode_fails {shape : Shape} {rules : List Rule} :
    FailsWith (Escapes shape.levels (rules.map Rule.param)) (b.fieldNode h t site shape rules) := by
  refine fieldNode_fails_of (I := fun s => Within shape.levels s.levels (rules.map Rule.param)) (fun _ => .inl)
    (.of_subset (List.Subset.refl _)) (fun s within => ?_) (fun s within rule hr s' hs' => ?_) fun s within => ?_
  · exact s.describe_fails.imp fun f uncaught => .inr (uncaught.mono (fun _ => within.types) within.names nofun)
  · obtain ⟨kinds, hplace⟩ := places_of_placeRule hs'
    exact within.trans (.place hplace (List.mem_map_of_mem hr))
  · exact (Workshop.compile_fails resolver engine site s).imp fun f escapes => escapes.within within nofun

/-- A malformed declaration is refused, whatever is declared, unless something in it is not caught. -/
theorem refused_or_uncaught :
    (∀ name shape rules named f, b.field h t name shape rules named = .error f → f.IsSchemaError ∨
      ∃ s declared, Shape.ofSpelling shape = .ok s ∧ Rule.ofSpellings rules named = .ok declared ∧
        Uncaught (Shape.typesOf s.levels) (Shape.caseNamesOf s.levels)
          (Shape.paramsOf s.levels ++ declared.map Rule.param) f) ∧
    (∀ rules named f, b.check h t rules named = .error f → f.IsSchemaError ∨
      ∃ declared, Rule.ofSpellings rules named = .ok declared ∧
        Uncaught [] [] (declared.map Rule.param ++ b.checks.map BoundRule.param) f) ∧
    ∀ shape f, b.compileShape h t shape = .error f → f.IsSchemaError ∨
      ∃ s, Shape.ofSpelling shape = .ok s ∧
        Uncaught (Shape.typesOf s.levels) (Shape.caseNamesOf s.levels) (Shape.paramsOf s.levels) f := by
  refine ⟨fun name shape rules named => ?_, fun rules named => ?_, fun shape => ?_⟩
  · rw [field_eq]
    refine FailsWith.ite _ (.error (.inl ⟨_, rfl, rfl⟩)) ((malformed_fails.imp fun f => .inl).bind fun s hs =>
      (malformed_fails.imp fun f => .inl).bind fun declared hdeclared => FailsWith.map ?_)
    exact (fieldNode_fails resolver engine).imp fun f escapes => escapes.imp_right fun uncaught =>
      ⟨s, declared, malformed_eq_ok hs, malformed_eq_ok hdeclared, uncaught⟩
  · unfold check
    refine (malformed_fails.imp fun f => .inl).bind fun declared hdeclared => ?_
    refine FailsWith.bind (FailsWith.imp (Workshop.bindRules_fails resolver engine) fun f escapes =>
      escapes.imp_right fun uncaught => ⟨declared, malformed_eq_ok hdeclared, ?_⟩) fun _ _ => .ok
    simpa [Shape.nested, Shape.levels, Shape.innerLevels, Shape.choiceLevels, Shape.typesOf, Shape.caseNamesOf,
      Shape.paramsOf, Shape.kind, Shape.rules, Shape.cases] using uncaught
  · unfold compileShape
    refine (malformed_fails.imp fun f => .inl).bind fun s hs => ?_
    refine FailsWith.imp (Workshop.compile_fails resolver engine _ s) fun f escapes => escapes.imp_right fun uncaught =>
      ⟨s, malformed_eq_ok hs, ?_⟩
    rwa [List.append_nil] at uncaught

omit resolver engine in
/-- The bound of a scalar whose type is a text is not caught. -/
theorem uncaught_of_text_type :
    let b : SchemaBuilder := { name := .text "s" }
    let shape : Shape := .scalar (.text "int") [⟨"min", .int 3⟩]
    b.field .bare .default (.text "x") (.shape shape) [] [] = .error .notAClass ∧ ¬Fault.notAClass.IsSchemaError ∧
      Uncaught [.text "int"] [] [.int 3] .notAClass := by
  intro b shape
  have fails : b.field .bare .default (.text "x") (.shape shape) [] [] = .error .notAClass := by
    rfl
  refine ⟨fails, nofun, ?_⟩
  rcases (refused_or_uncaught (b := b) rfl rfl).1 _ _ _ _ _ fails with ⟨r, hr, -⟩ | ⟨s, declared, hs, hd, uncaught⟩
  · cases hr
  · cases hs
    cases hd
    exact uncaught

end SchemaBuilder
end Conform
