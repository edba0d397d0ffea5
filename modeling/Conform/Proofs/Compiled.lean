import Conform.Builder.Basic
import Conform.Schema.Survey

/-!
What compiling guarantees. A compiled node has classes for the types of its scalars, texts for the names of its
cases, and classes or schemas for the targets of its structures; nothing else is accepted. The schemas
inside a shape stay what they are, so they have to be compiled themselves. Before that, rules are placed on a
shape one after the other, each in one of three ways (`Shape.Places`).
-/

namespace Conform

theorem Except.bind_eq_ok {ε α β : Type} {e : Except ε α} {f : α → Except ε β} {b : β} :
    e >>= f = .ok b ↔ ∃ a, e = .ok a ∧ f a = .ok b := by
  cases e <;> simp [bind, Except.bind]

/-- What holds at the start, and after every step that succeeds, holds at the end. -/
theorem foldlM_invariant {α β : Type} {P : β → Prop} {f : β → α → Except Fault β} :
    ∀ {xs : List α} {b r : β}, (∀ b, P b → ∀ x ∈ xs, ∀ b', f b x = .ok b' → P b') → P b →
      xs.foldlM f b = .ok r → P r
  | [], b, r, _, hb, h => by cases h; exact hb
  | x :: xs, b, r, step, hb, h => by
    rw [List.foldlM_cons] at h
    obtain ⟨b', hb', h⟩ := Except.bind_eq_ok.mp h
    exact foldlM_invariant (fun b hb y hy => step b hb y (List.mem_cons_of_mem _ hy))
      (step b hb x List.mem_cons_self b' hb') h

theorem mem_mapM {α β : Type} {f : α → Except Fault β} {y : β} : ∀ {xs : List α} {ys : List β},
    xs.mapM f = .ok ys → y ∈ ys → ∃ x ∈ xs, f x = .ok y
  | [], ys, h, hy => by
    cases h
    cases hy
  | x :: xs, ys, h, hy => by
    rw [List.mapM_cons] at h
    obtain ⟨y', hy', h⟩ := Except.bind_eq_ok.mp h
    obtain ⟨ys', hys', h⟩ := Except.bind_eq_ok.mp h
    cases h
    obtain rfl | hy := List.mem_cons.mp hy
    · exact ⟨x, List.mem_cons_self, hy'⟩
    · obtain ⟨x', hx', hfx⟩ := mem_mapM hys' hy
      exact ⟨x', List.mem_cons_of_mem _ hx', hfx⟩

/-- What a step brings about, and every step keeps, holds at the end. -/
theorem foldlM_reaches {α β : Type} {I P : β → Prop} {f : β → α → Except Fault β} {x : α}
    (keeps : ∀ b y b', f b y = .ok b' → (I b → I b') ∧ (P b → P b')) (hits : ∀ b b', I b → f b x = .ok b' → P b') :
    ∀ {xs : List α} {b r : β}, x ∈ xs → I b → xs.foldlM f b = .ok r → P r
  | y :: xs, b, r, hx, hb, h => by
    rw [List.foldlM_cons] at h
    obtain ⟨b', hb', rest⟩ := Except.bind_eq_ok.mp h
    rcases List.mem_cons.mp hx with rfl | hx
    · exact foldlM_invariant (fun b hb y _ b' hb' => (keeps b y b' hb').2 hb) (hits b b' hb hb') rest
    · exact foldlM_reaches keeps hits hx ((keeps b y b' hb').1 hb) rest

theorem mapM_reaches {α β : Type} {f : α → Except Fault β} {x : α} : ∀ {xs : List α} {ys : List β},
    xs.mapM f = .ok ys → x ∈ xs → ∃ y ∈ ys, f x = .ok y
  | y :: xs, ys, h, hx => by
    rw [List.mapM_cons] at h
    obtain ⟨z, hz, h⟩ := Except.bind_eq_ok.mp h
    obtain ⟨zs, hzs, h⟩ := Except.bind_eq_ok.mp h
    cases h
    rcases List.mem_cons.mp hx with rfl | hx
    · exact ⟨z, List.mem_cons_self, hz⟩
    · obtain ⟨w, hw, found⟩ := mapM_reaches hzs hx
      exact ⟨w, List.mem_cons_of_mem _ hw, found⟩

theorem Value.mem_assign {α : Type} {key k : Value} {a b : α} : ∀ {entries : List (Value × α)},
    (k, b) ∈ assign key a entries →
      (k, b) ∈ entries ∨ b = a ∧ (k = key ∨ k.same key = true ∧ ∃ b', (k, b') ∈ entries)
  | [], h => by
    rw [assign, List.mem_singleton] at h
    cases h
    exact .inr ⟨rfl, .inl rfl⟩
  | (k', b') :: rest, h => by
    unfold assign at h
    split at h
    · next same =>
      obtain h | h := List.mem_cons.mp h
      · cases h
        exact .inr ⟨rfl, .inr ⟨same, b', List.mem_cons_self⟩⟩
      · exact .inl (List.mem_cons_of_mem _ h)
    · obtain h | h := List.mem_cons.mp h
      · cases h
        exact .inl List.mem_cons_self
      · obtain h | ⟨rfl, rfl | ⟨same, b'', h⟩⟩ := mem_assign h
        · exact .inl (List.mem_cons_of_mem _ h)
        · exact .inr ⟨rfl, .inl rfl⟩
        · exact .inr ⟨rfl, .inr ⟨same, b'', List.mem_cons_of_mem _ h⟩⟩

theorem Value.assign_texts {α : Type} {s : String} {a : α} {entries : List (Value × α)}
    (texts : ∀ e ∈ entries, ∃ t, e.1 = .text t) : ∀ e ∈ assign (.text s) a entries, ∃ t, e.1 = .text t := by
  intro e he
  rcases mem_assign he with he | ⟨-, own | ⟨-, b, he⟩⟩
  · exact texts _ he
  · exact ⟨s, own⟩
  · exact texts (e.1, b) he

/-! ### Soundness -/

mutual

/-- A node of which every part can be what the builder makes. -/
inductive Node.Sound : Node → Prop where
  | scalar {rules type} (ht : type = .absent ∨ ∃ c attributes, type = .cls c attributes) :
    Node.Sound (.scalar rules type)
  | wrapper {w rules inner keys} (hi : ∀ n, inner = some n → Node.Sound n) (hk : ∀ n, keys = some n → Node.Sound n) :
    Node.Sound (.wrapper w rules inner keys)
  | nested {rules target} (ht : Target.Sound target) : Node.Sound (.nested rules target)
  | variants {rules cases tag} (hn : ∀ name node, (name, node) ∈ cases → ∃ s, name = .text s)
      (hc : ∀ name n, (name, some n) ∈ cases → Node.Sound n) : Node.Sound (.variants rules cases tag)

/-- A target that is a sound schema or a class. -/
inductive Target.Sound : Target → Prop where
  | schema {s} (hs : Schema.Sound s) : Target.Sound (.schema s)
  | cls {c attributes} : Target.Sound (.value (.cls c attributes))

/-- A schema whose fields have sound nodes. -/
inductive Schema.Sound : Schema → Prop where
  | mk {s} (hf : ∀ name n, (name, n) ∈ s.fields → Node.Sound n) : Schema.Sound s

end

/-! ### Schemas inside shapes -/

/-- The schema that a target is, if it is one. -/
def Target.schemas : Target → List Schema
  | .schema s => [s]
  | .value _ => []

mutual

/-- The schemas that a shape is made with. -/
def Shape.schemas : Shape → List Schema
  | .mk _ _ _ inner keys target cases _ =>
    Shape.innerSchemas inner ++ Shape.innerSchemas keys ++ target.schemas ++ Shape.choiceSchemas cases

/-- The schemas of a shape that may be missing. -/
def Shape.innerSchemas : Option Shape → List Schema
  | none => []
  | some s => s.schemas

/-- The schemas of the cases of a choice, if there are any. -/
def Shape.choiceSchemas : Option (List (Value × Payload)) → List Schema
  | none => []
  | some cases => Shape.caseSchemas cases

/-- The schemas of what cases carry. -/
def Shape.caseSchemas : List (Value × Payload) → List Schema
  | [] => []
  | (_, payload) :: rest => Payload.schemas payload ++ Shape.caseSchemas rest

/-- The schemas of what a variant carries. -/
def Payload.schemas : Payload → List Schema
  | .shape s => s.schemas
  | .target t => t.schemas

end

/-- The schemas of what may stand for a shape. -/
def ShapeSpelling.schemas : ShapeSpelling → List Schema
  | .shape s => s.schemas
  | .value _ => []

theorem Shape.schemas_ofSpelling {spelling : ShapeSpelling} {shape : Shape} (h : ofSpelling spelling = .ok shape)
    {u : Schema} (hu : u ∈ shape.schemas) : u ∈ spelling.schemas := by
  unfold ofSpelling at h
  split at h
  · cases h
    exact hu
  · cases h
    simp [scalar, schemas, innerSchemas, choiceSchemas, Target.schemas] at hu
  · cases h
    simp [scalar, schemas, innerSchemas, choiceSchemas, Target.schemas] at hu
  · cases h

/-! ### Placing a rule -/

namespace Shape
variable {kinds : List FieldKind} {rule : Rule}

/-- What a rule makes of a shape that takes it in: the rule stays at the level itself, goes further in, or stays at the
scalar that a wrapper without a shape inside contains. -/
inductive Places (kinds : List FieldKind) (rule : Rule) : Shape → Shape → Prop where
  | here {kind rules type inner keys target cases tag} (takes : kinds.contains kind = true) :
      Places kinds rule (.mk kind rules type inner keys target cases tag)
        (.mk kind (rules ++ [rule]) type inner keys target cases tag)
  | inside {kind rules type s placed keys target cases tag} (passes : ¬kinds.contains kind = true)
      (wrapper : kind.isWrapper = true) (inner : Places kinds rule s placed) :
      Places kinds rule (.mk kind rules type (some s) keys target cases tag)
        (.mk kind rules type (some placed) keys target cases tag)
  | fresh {kind rules type keys target cases tag} (passes : ¬kinds.contains kind = true) (wrapper : kind.isWrapper = true)
      (takes : kinds.contains .scalar = true) :
      Places kinds rule (.mk kind rules type none keys target cases tag)
        (.mk kind rules type (some (.scalar .absent [rule])) keys target cases tag)

theorem Places.of_place {s placed : Shape} (h : s.place kinds rule = some placed) : Places kinds rule s placed := by
  cases s with
  | mk kind rules type inner keys target cases tag =>
    unfold place at h
    split at h
    · next takes =>
      cases h
      exact .here takes
    next passes =>
    split at h
    · next wrapper =>
      obtain ⟨inner', hinner, rfl⟩ := Option.map_eq_some_iff.mp h
      cases inner with
      | some s => exact .inside passes wrapper (.of_place hinner)
      | none =>
        dsimp only at hinner
        split at hinner
        · next takes =>
          cases hinner
          exact .fresh passes wrapper takes
        · cases hinner
    · cases h

theorem place_iff {s placed : Shape} : s.place kinds rule = some placed ↔ Places kinds rule s placed := by
  refine ⟨.of_place, fun h => ?_⟩
  induction h with
  | here takes =>
    unfold place
    exact if_pos takes
  | inside passes wrapper _ ih =>
    unfold place
    rw [if_neg passes, if_pos wrapper]
    exact congrArg (Option.map _) ih
  | fresh passes wrapper takes =>
    unfold place
    rw [if_neg passes, if_pos wrapper]
    exact congrArg (Option.map _) (if_pos takes)

/-- Placing a rule changes no schema. -/
theorem Places.schemas_eq {s placed : Shape} (h : Places kinds rule s placed) : placed.schemas = s.schemas := by
  induction h with
  | here => simp only [schemas]
  | inside _ _ _ ih => simp only [schemas, innerSchemas, ih]
  | fresh => simp [schemas, innerSchemas, choiceSchemas, scalar, Target.schemas]

end Shape

/-! ### Compiling -/

/-- The parameters of the engine's own functions are checked by the engine. -/
theorem FunctionTable.checkParam_builtins {f : ConstraintFunction} (hf : f ∈ builtins) (g : Value) :
    f.checkParam ≠ some (.custom g) := by
  have each : ∀ f ∈ builtins, f.checkParam ≠ some (.custom g) := by simp [builtins]
  exact each f hf

namespace Workshop

/-- What becomes of a rule whose function applies: its parameter is resolved and checked. -/
def bound (w : Workshop) (f : ConstraintFunction) (shape : Shape) (site : Site) (rule : Rule) :
    Except Fault BoundRule :=
  w.resolve f rule.param >>= fun param => match f.checkParam with
    | none => .ok ⟨f, param⟩
    | some check => check.run w.host param shape >>= fun
      | none => .ok ⟨f, param⟩
      | some problem => .error (.refused (.badParameter rule.name problem param site))

/-- Binding a rule looks its function up, asks whether it applies, and then sees to its parameter. -/
theorem bindRule_eq (w : Workshop) (shape : Shape) (site : Site) (rule : Rule) :
    w.bindRule shape site rule = w.lookUp rule.name site >>= fun f =>
      if f.appliesTo.contains shape.kind then w.bound f shape site rule
      else .error (.refused (.inapplicable rule.name shape.kind.name site)) := by
  unfold bindRule
  refine congrArg (w.lookUp rule.name site >>= ·) (funext fun f => ?_)
  by_cases applies : f.appliesTo.contains shape.kind = true
  · simp only [applies, Bool.not_true, if_true]
    rfl
  · simp only [applies, Bool.not_false, if_true, Bool.false_eq_true, if_false]
    rfl

variable {w : Workshop} {site : Site}

theorem lookUp_of_find? {name : String} {f : ConstraintFunction} (found : w.table.find? name = some f) :
    w.lookUp name site = .ok f := by simp only [lookUp, found]

theorem mem_of_lookUp {name : String} {f : ConstraintFunction} (hf : w.lookUp name site = .ok f) :
    f ∈ w.table.functions := by
  unfold lookUp at hf
  split at hf
  · next found => cases hf; exact List.mem_of_find?_eq_some found
  · cases hf

theorem name_of_lookUp {name : String} {f : ConstraintFunction} (hf : w.lookUp name site = .ok f) : f.name = name := by
  unfold lookUp FunctionTable.find? at hf
  split at hf
  · next found =>
    cases hf
    simpa using List.find?_some found
  · cases hf

/-- A bound rule has the function of its name, which applies, and a parameter that passes the function's check. -/
theorem bindRule_cases {shape : Shape} {rule : Rule} {r : BoundRule} (h : w.bindRule shape site rule = .ok r) :
    w.lookUp rule.name site = .ok r.function ∧ r.function.appliesTo.contains shape.kind = true ∧
      w.resolve r.function rule.param = .ok r.param ∧
        ∀ check, r.function.checkParam = some check → check.run w.host r.param shape = .ok none := by
  rw [bindRule_eq] at h
  obtain ⟨f, hf, h⟩ := Except.bind_eq_ok.mp h
  split at h
  · next applies =>
    obtain ⟨param, resolved, h⟩ := Except.bind_eq_ok.mp h
    split at h
    · next unchecked =>
      cases h
      exact ⟨hf, applies, resolved, fun check hc => by cases unchecked.symm.trans hc⟩
    · next check checked =>
      obtain ⟨problem, ran, h⟩ := Except.bind_eq_ok.mp h
      split at h <;> cases h
      exact ⟨hf, applies, resolved, fun check' hc => by cases checked.symm.trans hc; exact ran⟩
  · cases h

/-- Nothing else is asked of a rule than that. -/
theorem bindRule_ok {shape : Shape} {rule : Rule} {f : ConstraintFunction} {param : Value}
    (found : w.lookUp rule.name site = .ok f) (applies : f.appliesTo.contains shape.kind = true)
    (resolved : w.resolve f rule.param = .ok param)
    (passes : ∀ check, f.checkParam = some check → check.run w.host param shape = .ok none) :
    w.bindRule shape site rule = .ok ⟨f, param⟩ := by
  have bound : w.bound f shape site rule = .ok ⟨f, param⟩ := by
    rw [bound, resolved]
    rcases checked : f.checkParam with _ | check
    · rfl
    · change (check.run w.host param shape >>= fun problem => match problem with
        | none => Except.ok (⟨f, param⟩ : BoundRule)
        | some problem => .error (.refused (.badParameter rule.name problem param site))) = _
      rw [passes check checked]
      rfl
  rw [bindRule_eq, found]
  exact (if_pos applies).trans bound

theorem bindRule_refused {shape : Shape} {rule : Rule} {f : ConstraintFunction} {param : Value} {check : ParameterCheck}
    {problem : String} (found : w.lookUp rule.name site = .ok f) (applies : f.appliesTo.contains shape.kind = true)
    (resolved : w.resolve f rule.param = .ok param) (checked : f.checkParam = some check)
    (refused : check.run w.host param shape = .ok (some problem)) :
    w.bindRule shape site rule = .error (.refused (.badParameter rule.name problem param site)) := by
  have bound : w.bound f shape site rule = .error (.refused (.badParameter rule.name problem param site)) := by
    rw [bound, resolved, checked]
    change (check.run w.host param shape >>= fun problem => match problem with
      | none => Except.ok (⟨f, param⟩ : BoundRule)
      | some problem => .error (.refused (.badParameter rule.name problem param site))) = _
    rw [refused]
    rfl
  rw [bindRule_eq, found]
  exact (if_pos applies).trans bound

theorem checkTarget_sound {target : Target} {u : Unit} (h : w.checkTarget target site = .ok u)
    (hs : ∀ s ∈ target.schemas, s.Sound) : target.Sound := by
  unfold checkTarget at h
  split at h
  · exact .schema (hs _ List.mem_cons_self)
  · cases h
  · next v _ =>
    cases v with
    | cls c attributes => exact .cls
    | _ => cases h

theorem checkScalarType_class {type : Value} {u : Unit} (h : checkScalarType type site = .ok u) :
    type = .absent ∨ ∃ c attributes, type = .cls c attributes := by
  unfold checkScalarType at h
  split at h
  · exact .inl rfl
  · exact .inr ⟨_, _, rfl⟩
  · cases h

theorem isScalarClass_class {v : Value} (h : w.isScalarClass (.value v) = true) :
    ∃ c attributes, v = .cls c attributes := by
  unfold isScalarClass at h
  split at h
  · next heq =>
    cases heq
    exact ⟨_, _, rfl⟩
  · cases h

/-- What a shape compiles to: the rules of its level are bound, and the rest is as its kind says. -/
theorem compile_cases {kind : FieldKind} {rules : List Rule} {type : Value} {inner keys : Option Shape} {target : Target}
    {cases : Option (List (Value × Payload))} {tag : Value} {n : Node}
    (h : w.compile site (.mk kind rules type inner keys target cases tag) = .ok n) :
    ∃ bound, w.bindRules (.mk kind rules type inner keys target cases tag) site [] = .ok bound ∧
      (kind = .scalar ∧ checkScalarType type site = .ok () ∧ n = .scalar bound type ∨
      (∃ wr : Wrapper, kind = wr.kind ∧ ∃ i k, w.compileInner site inner = .ok i ∧ w.compileKeys site keys = .ok k ∧
        n = .wrapper wr bound (some i) k) ∨
      kind = .nested ∧ w.checkTarget target site = .ok () ∧ n = .nested bound target ∨
      kind = .enum ∧ ∃ all done, cases = some all ∧ all ≠ [] ∧ w.compileCases site all [] = .ok done ∧
        n = .variants bound done tag) := by
  rw [compile] at h
  obtain ⟨bound, hbound, h⟩ := Except.bind_eq_ok.mp h
  refine ⟨bound, hbound, ?_⟩
  have wrapped (wr : Wrapper) (hk : kind = wr.kind)
      (h : (w.compileInner site inner >>= fun i => w.compileKeys site keys >>= fun k =>
        .ok (.wrapper wr bound (some i) k) : Except Fault Node) = .ok n) :
      ∃ wr : Wrapper, kind = wr.kind ∧ ∃ i k, w.compileInner site inner = .ok i ∧ w.compileKeys site keys = .ok k ∧
        n = .wrapper wr bound (some i) k := by
    obtain ⟨i, hi, h⟩ := Except.bind_eq_ok.mp h
    obtain ⟨k, hk', h⟩ := Except.bind_eq_ok.mp h
    cases h
    exact ⟨wr, hk, i, k, hi, hk', rfl⟩
  cases kind with
  | scalar =>
    obtain ⟨u, hu, h⟩ := Except.bind_eq_ok.mp h
    cases h
    exact .inl ⟨rfl, hu, rfl⟩
  | optional => exact .inr (.inl (wrapped .optional rfl h))
  | sequence => exact .inr (.inl (wrapped .sequence rfl h))
  | mapping => exact .inr (.inl (wrapped .mapping rfl h))
  | nested =>
    obtain ⟨u, hu, h⟩ := Except.bind_eq_ok.mp h
    cases h
    exact .inr (.inr (.inl ⟨rfl, hu, rfl⟩))
  | enum =>
    rcases cases with _ | _ | ⟨c, cases⟩
    · cases h
    · cases h
    · obtain ⟨done, hdone, h⟩ := Except.bind_eq_ok.mp h
      cases h
      exact .inr (.inr (.inr ⟨rfl, _, done, rfl, nofun, hdone, rfl⟩))

/-- What a target compiles to as a case: nothing, a scalar of its class, or a structure of it. -/
theorem compilePayload_target {t : Target} {n : Option Node} (h : w.compilePayload site (.target t) = .ok n) :
    t = .value .absent ∧ n = none ∨
      (∃ v, t = .value v ∧ w.isScalarClass (.value v) = true ∧ n = some (.scalar [] v)) ∨
      t.isAbsent = false ∧ w.isScalarClass t = false ∧ w.checkTarget t site = .ok () ∧ n = some (.nested [] t) := by
  unfold compilePayload at h
  split at h
  · next heq => cases heq
  · next heq =>
    cases heq
    cases h
    exact .inl ⟨rfl, rfl⟩
  · next t present heq =>
    cases heq
    have given : t.isAbsent = false := by
      unfold Target.isAbsent
      split
      · exact absurd rfl present
      · rfl
    split at h
    · next leaf =>
      split at h
      · cases h
        exact .inr (.inl ⟨_, rfl, leaf, rfl⟩)
      · cases leaf
    · next other =>
      obtain ⟨u, checked, h⟩ := Except.bind_eq_ok.mp h
      cases h
      exact .inr (.inr ⟨given, eq_false_of_ne_true other, checked, rfl⟩)

mutual

/-- A compiled shape is sound when the schemas in it are. -/
theorem compile_sound : ∀ (site : Site) (shape : Shape) (node : Node), (∀ u ∈ shape.schemas, u.Sound) →
    w.compile site shape = .ok node → node.Sound
  | site, .mk kind declared type inner keys target cases tag, node => by
    intro hs h
    have hinner : ∀ u ∈ Shape.innerSchemas inner, u.Sound := fun u hu => hs u (by simp [Shape.schemas, hu])
    have hkeys : ∀ u ∈ Shape.innerSchemas keys, u.Sound := fun u hu => hs u (by simp [Shape.schemas, hu])
    have htarget : ∀ u ∈ target.schemas, u.Sound := fun u hu => hs u (by simp [Shape.schemas, hu])
    obtain ⟨bound, -, ⟨-, scalar, rfl⟩ | ⟨wr, -, i, k, hi, hk, rfl⟩ | ⟨-, checked, rfl⟩ |
      ⟨-, all, done, rfl, -, hdone, rfl⟩⟩ := compile_cases h
    · exact .scalar (checkScalarType_class scalar)
    · refine .wrapper (fun m hm => ?_) (fun m hm => ?_)
      · cases hm
        exact compileInner_sound site inner i hinner hi
      · cases hm
        exact compileKeys_sound site keys m hkeys hk
    · exact .nested (checkTarget_sound checked htarget)
    · have hcases : ∀ u ∈ Shape.caseSchemas all, u.Sound := fun u hu =>
        hs u (by simp [Shape.schemas, Shape.choiceSchemas, hu])
      obtain ⟨hn, hc⟩ := compileCases_sound site all [] done hcases ⟨by simp, by simp⟩ hdone
      exact .variants hn hc

theorem compileInner_sound : ∀ (site : Site) (inner : Option Shape) (node : Node),
    (∀ u ∈ Shape.innerSchemas inner, u.Sound) → w.compileInner site inner = .ok node → node.Sound
  | _, none, node => by
    intro _ h
    rw [compileInner] at h
    cases h
    exact .scalar (.inl rfl)
  | site, some s, node => by
    intro hs h
    rw [compileInner] at h
    exact compile_sound site s node (by simpa [Shape.innerSchemas] using hs) h

theorem compileKeys_sound : ∀ (site : Site) (keys : Option Shape) (node : Node),
    (∀ u ∈ Shape.innerSchemas keys, u.Sound) → w.compileKeys site keys = .ok (some node) → node.Sound
  | _, none, node => by
    intro _ h
    rw [compileKeys] at h
    cases h
  | site, some s, node => by
    intro hs h
    rw [compileKeys] at h
    obtain ⟨n, hn, h⟩ := Except.bind_eq_ok.mp h
    cases h
    exact compile_sound site s node (by simpa [Shape.innerSchemas] using hs) hn

theorem compileCases_sound : ∀ (site : Site) (cases : List (Value × Payload)) (done all : List (Value × Option Node)),
    (∀ u ∈ Shape.caseSchemas cases, u.Sound) →
    ((∀ name node, (name, node) ∈ done → ∃ s, name = .text s) ∧ ∀ name n, (name, some n) ∈ done → n.Sound) →
    w.compileCases site cases done = .ok all →
    (∀ name node, (name, node) ∈ all → ∃ s, name = .text s) ∧ ∀ name n, (name, some n) ∈ all → n.Sound
  | _, [], done, all => by
    intro _ hd h
    rw [compileCases] at h
    cases h
    exact hd
  | site, (name, payload) :: rest, done, all => by
    intro hs hd h
    rw [compileCases] at h
    obtain ⟨node, hnode, h⟩ := Except.bind_eq_ok.mp h
    have hpayload : ∀ u ∈ payload.schemas, u.Sound := fun u hu => hs u (by simp [Shape.caseSchemas, hu])
    have hrest : ∀ u ∈ Shape.caseSchemas rest, u.Sound := fun u hu => hs u (by simp [Shape.caseSchemas, hu])
    refine compileCases_sound site rest _ all hrest ⟨fun k b hk => ?_, fun k n hk => ?_⟩ h
    · obtain hk | ⟨-, rfl | ⟨-, b', hk⟩⟩ := Value.mem_assign hk
      · exact hd.1 k b hk
      · exact ⟨_, rfl⟩
      · exact hd.1 k b' hk
    · obtain hk | ⟨hn, -⟩ := Value.mem_assign hk
      · exact hd.2 k n hk
      · exact compilePayload_sound _ payload n hpayload (hn ▸ hnode)

theorem compilePayload_sound : ∀ (site : Site) (payload : Payload) (node : Node),
    (∀ u ∈ payload.schemas, u.Sound) → w.compilePayload site payload = .ok (some node) → node.Sound
  | site, .shape s, node => by
    intro hs h
    rw [compilePayload] at h
    obtain ⟨n, hn, h⟩ := Except.bind_eq_ok.mp h
    cases h
    exact compile_sound site s node (by simpa [Payload.schemas] using hs) hn
  | site, .target t, node => by
    intro hs h
    obtain ⟨-, none⟩ | ⟨v, rfl, leaf, same⟩ | ⟨-, -, checked, same⟩ := compilePayload_target h
    · cases none
    · cases same
      exact .scalar (.inr (isScalarClass_class leaf))
    · cases same
      exact .nested (checkTarget_sound checked (by simpa [Payload.schemas] using hs))

end

end Workshop

/-! ### Building -/

theorem Rule.ofSpellings_rules (rules : List Rule) : Rule.ofSpellings (rules.map .rule) [] = .ok rules := by
  have each : (rules.map RuleSpelling.rule).mapM Rule.ofSpelling = .ok (rules.map fun r => [r]) := by
    induction rules with
    | nil => rfl
    | cons r rest ih =>
      rw [List.map_cons, List.mapM_cons, ih]
      rfl
  rw [Rule.ofSpellings, each]
  change Except.ok ((rules.map fun r => [r]).flatten ++ []) = Except.ok rules
  rw [List.append_nil, ← List.flatMap_def, List.flatMap_singleton']

namespace SchemaBuilder

/-- The node of a field: its rules are placed on its shape, one after the other, and the shape is compiled. -/
def fieldNode (b : SchemaBuilder) (h : Host) (t : FunctionTable) (site : Site) (shape : Shape) (rules : List Rule) :
    Except Fault Node :=
  rules.foldlM (placeRule site (b.workshop h t)) shape >>= (b.workshop h t).compile site

/-- Declaring a field adds its node, unless the name is taken or a spelling is malformed. -/
theorem field_eq (b : SchemaBuilder) (h : Host) (t : FunctionTable) (name : Value) (spelling : ShapeSpelling)
    (rules : List RuleSpelling) (named : List (String × Value)) :
    b.field h t name spelling rules named =
      if (b.fields.any fun (n, _) => n.eq name) then .error (.refused (.duplicateField b.name name))
      else malformed { schema := b.name, field := some name } (Shape.ofSpelling spelling) >>= fun shape =>
        malformed { schema := b.name, field := some name } (Rule.ofSpellings rules named) >>= fun rules =>
          (b.fieldNode h t { schema := b.name, field := some name } shape rules).map fun n =>
            { b with fields := b.fields ++ [(name, n)] } := by
  unfold field
  split
  · rfl
  · refine congrArg (malformed _ (Shape.ofSpelling spelling) >>= ·) (funext fun shape => ?_)
    refine congrArg (malformed _ (Rule.ofSpellings rules named) >>= ·) (funext fun rules => ?_)
    unfold fieldNode
    rcases rules.foldlM (placeRule _ (b.workshop h t)) shape with e | s
    · rfl
    · change ((b.workshop h t).compile _ s >>= fun n => Except.ok _) = Except.map _ ((b.workshop h t).compile _ s)
      rcases (b.workshop h t).compile _ s with e | n <;> rfl

/-- A field of a new name, whose shape and rules are well spelled, is accepted with its node or refused as that is. -/
theorem field_spelled {b : SchemaBuilder} {h : Host} {t : FunctionTable} {name : Value} {spelling : ShapeSpelling} {s : Shape}
    {spellings : List RuleSpelling} {named : List (String × Value)} {rules : List Rule}
    (fresh : ∀ e ∈ b.fields, e.1.eq name = false) (shaped : Shape.ofSpelling spelling = .ok s)
    (spelled : Rule.ofSpellings spellings named = .ok rules) :
    b.field h t name spelling spellings named =
      (b.fieldNode h t { schema := b.name, field := some name } s rules).map fun n =>
        { b with fields := b.fields ++ [(name, n)] } := by
  have new : (b.fields.any fun (n, _) => n.eq name) = false := List.any_eq_false.mpr fun e he => by simp [fresh e he]
  rw [field_eq, new, shaped, spelled]
  rfl

/-- A builder whose fields have sound nodes. -/
def Sound (b : SchemaBuilder) : Prop := ∀ name n, (name, n) ∈ b.fields → n.Sound

theorem malformed_eq_ok {α : Type} {site : Site} {e : Except Fault α} {a : α} (h : malformed site e = .ok a) :
    e = .ok a := by
  cases e with
  | error f => cases h
  | ok b => exact h

theorem places_of_placeRule {site : Site} {w : Workshop} {shape placed : Shape} {rule : Rule}
    (h : placeRule site w shape rule = .ok placed) : ∃ kinds, Shape.Places kinds rule shape placed := by
  unfold placeRule at h
  obtain ⟨f, -, h⟩ := Except.bind_eq_ok.mp h
  split at h
  · next s hs =>
    cases h
    exact ⟨_, .of_place hs⟩
  · obtain ⟨d, -, h⟩ := Except.bind_eq_ok.mp h
    cases h

theorem schemas_placeRule {site : Site} {w : Workshop} {shape placed : Shape} {rule : Rule}
    (h : placeRule site w shape rule = .ok placed) : placed.schemas = shape.schemas := by
  obtain ⟨kinds, placed⟩ := places_of_placeRule h
  exact placed.schemas_eq

variable {b b' : SchemaBuilder} {h : Host} {t : FunctionTable}

/-- Declaring a field of a shape whose schemas are sound keeps a builder sound. -/
theorem field_sound {name : Value} {spelling : ShapeSpelling} {rules : List RuleSpelling}
    {named : List (String × Value)} (hb : b.Sound) (hs : ∀ u ∈ spelling.schemas, u.Sound)
    (hf : b.field h t name spelling rules named = .ok b') : b'.Sound := by
  unfold field at hf
  dsimp only at hf
  split at hf
  · cases hf
  obtain ⟨shape, hshape, hf⟩ := Except.bind_eq_ok.mp hf
  obtain ⟨declared, -, hf⟩ := Except.bind_eq_ok.mp hf
  obtain ⟨placed, hplaced, hf⟩ := Except.bind_eq_ok.mp hf
  obtain ⟨node, hnode, hf⟩ := Except.bind_eq_ok.mp hf
  cases hf
  have hplaced : ∀ u ∈ placed.schemas, u.Sound := by
    refine foldlM_invariant (P := fun s : Shape => ∀ u ∈ s.schemas, u.Sound) ?_ ?_ hplaced
    · intro s hs rule _ s' hs' u hu
      exact hs u (schemas_placeRule hs' ▸ hu)
    · exact fun u hu => hs u (Shape.schemas_ofSpelling (malformed_eq_ok hshape) hu)
  intro n m hm
  rcases List.mem_append.mp hm with hm | hm
  · exact hb n m hm
  · cases List.mem_singleton.mp hm
    exact Workshop.compile_sound _ placed _ hplaced hnode

/-- Declared checks are bound, beside those before them, on a structure of the builder's class. -/
theorem check_cases {rules : List RuleSpelling} {named : List (String × Value)} (hc : b.check h t rules named = .ok b') :
    ∃ declared site checks, (b.workshop h t).bindRules (.nested (.value b.targetType) declared) site b.checks = .ok checks ∧
      b' = { b with checks } := by
  unfold check at hc
  obtain ⟨declared, -, hc⟩ := Except.bind_eq_ok.mp hc
  obtain ⟨checks, hchecks, hc⟩ := Except.bind_eq_ok.mp hc
  cases hc
  exact ⟨declared, _, checks, hchecks, rfl⟩

/-- Declaring checks keeps a builder sound. -/
theorem check_sound {rules : List RuleSpelling} {named : List (String × Value)} (hb : b.Sound)
    (hc : b.check h t rules named = .ok b') : b'.Sound := by
  obtain ⟨_, _, checks, -, rfl⟩ := check_cases hc
  exact hb

/-- A sound builder builds a sound schema. -/
theorem build_sound (hb : b.Sound) (serial : Nat) : (b.build serial).Sound := .mk hb

/-- A shape that stands alone compiles to a sound node. -/
theorem compileShape_sound {spelling : ShapeSpelling} {node : Node} (hs : ∀ u ∈ spelling.schemas, u.Sound)
    (hc : b.compileShape h t spelling = .ok node) : node.Sound := by
  unfold compileShape at hc
  obtain ⟨shape, hshape, hc⟩ := Except.bind_eq_ok.mp hc
  exact Workshop.compile_sound _ shape _
    (fun u hu => hs u (Shape.schemas_ofSpelling (malformed_eq_ok hshape) hu)) hc

end SchemaBuilder
end Conform
