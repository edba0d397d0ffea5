import Conform.Proofs.Compiled
import Mathlib.Data.List.Basic

/-!
What shapes and nodes hold. Every rule stands at a level, and the levels of a field are reached from its own by turns:
to what a wrapper contains, or to the keys of a mapping. Placing a rule adds it at one level, and compiling changes
nothing: a node has the levels of its shape, and at each of them the rules of the shape, in their order.
-/

namespace Conform

/-- The rule that a bound rule was declared as. -/
def BoundRule.declared (r : BoundRule) : Rule := ⟨r.name, r.param⟩

namespace Shape

/-- What a wrapper contains; a missing shape stands for any scalar. -/
def content (s : Shape) : Option Shape := if s.kind.isWrapper then some (s.inner.getD (scalar .absent [])) else none

/-- The shape of a mapping's keys, if it is followed. -/
def entryKeys (s : Shape) : Option Shape := if s.kind.isWrapper then s.keys else none

/-- The level of a shape that some turns lead to. -/
def at? : List Turn → Shape → Option Shape
  | [], s => some s
  | .inner :: way, s => s.content.bind (at? way)
  | .keys :: way, s => s.entryKeys.bind (at? way)
  | _ :: _, _ => none

mutual

/-- The rules of all the levels of a shape. -/
def allRules : Shape → List Rule
  | .mk kind rules _ inner keys _ _ _ => rules ++ if kind.isWrapper then rulesWithin keys ++ rulesWithin inner else []

/-- The rules of a shape that may be missing. -/
def rulesWithin : Option Shape → List Rule
  | none => []
  | some s => s.allRules

end

/-- A level that leads to the schema of a class: a structure of the class, or a choice with a case for it, where
each case has a text of its own for a name. -/
inductive Offers (v : Value) : Shape → Prop where
  | nested {rules} : Offers v (.nested (.value v) rules)
  | case {rules cases name} (names : ∃ texts : List String, cases.map Prod.fst = texts.map Value.text ∧ texts.Nodup)
      (hm : (name, .target (.value v)) ∈ cases) : Offers v (.variants cases .absent rules)

/-- The same level with more rules, whatever is below. -/
structure Grown (before after : Shape) (more : List Rule) : Prop where
  kind : after.kind = before.kind
  type : after.type = before.type
  target : after.target = before.target
  cases : after.cases = before.cases
  rules : after.rules = before.rules ++ more

end Shape

namespace Node

def content : Node → Option Node
  | .wrapper _ _ inner _ => inner
  | _ => none

def entryKeys : Node → Option Node
  | .wrapper _ _ _ keys => keys
  | _ => none

/-- The level of a node that some turns lead to. -/
def at? : List Turn → Node → Option Node
  | [], n => some n
  | .inner :: way, n => n.content.bind (at? way)
  | .keys :: way, n => n.entryKeys.bind (at? way)
  | _ :: _, _ => none

/-- A level that leads to the schema of a class, as a structure or as a case of a choice. -/
inductive Offers (v : Value) : Node → Prop where
  | nested {rules} : Offers v (.nested rules (.value v))
  | case {rules cases tag name inside} (hm : (name, some (.nested inside (.value v))) ∈ cases) :
      Offers v (.variants rules cases tag)

mutual

/-- The rules of all the levels of a node, as they were declared. -/
def allRules : Node → List Rule
  | .scalar rules _ | .nested rules _ | .variants rules _ _ => rules.map BoundRule.declared
  | .wrapper _ rules inner keys => rules.map BoundRule.declared ++ (rulesWithin keys ++ rulesWithin inner)

/-- The rules of a node that may be missing. -/
def rulesWithin : Option Node → List Rule
  | none => []
  | some n => n.allRules

end

end Node

/-! ### Shapes with more rules -/

namespace Shape

theorem Grown.refl (s : Shape) : s.Grown s [] := ⟨rfl, rfl, rfl, rfl, (List.append_nil _).symm⟩

theorem Grown.trans {a b c : Shape} {more later : List Rule} (first : a.Grown b more) (next : b.Grown c later) :
    a.Grown c (more ++ later) where
  kind := next.kind.trans first.kind
  type := next.type.trans first.type
  target := next.target.trans first.target
  cases := next.cases.trans first.cases
  rules := by rw [next.rules, first.rules, List.append_assoc]

theorem Offers.withRules {v : Value} {s : Shape} (offers : s.Offers v) (more : List Rule) : (s.withRules more).Offers v := by
  cases offers with
  | nested => exact .nested
  | case names hm => exact .case names hm

/-- What is below a level is below it whatever its rules are. -/
theorem at?_below {s s' : Shape} (kind : s'.kind = s.kind) (inner : s'.inner = s.inner) (keys : s'.keys = s.keys)
    (turn : Turn) (way : List Turn) : s'.at? (turn :: way) = s.at? (turn :: way) := by
  cases turn <;> simp [at?, content, entryKeys, kind, inner, keys]

@[simp] theorem allRules_scalar (type : Value) (rules : List Rule) : (scalar type rules).allRules = rules :=
  List.append_nil rules

@[simp] theorem allRules_nested (target : Target) (rules : List Rule) : (nested target rules).allRules = rules :=
  List.append_nil rules

@[simp] theorem allRules_variants (cases : List (Value × Payload)) (tag : Value) (rules : List Rule) :
    (variants cases tag rules).allRules = rules := List.append_nil rules

theorem isWrapper_kind (w : Wrapper) : w.kind.isWrapper = true := by
  cases w <;> rfl

theorem allRules_wrapper (w : Wrapper) (s : Shape) (keys : Option Shape) (rules : List Rule) :
    (wrapper w (some s) keys rules).allRules = rules ++ (rulesWithin keys ++ s.allRules) := by
  have inside : (wrapper w (some s) keys rules).allRules =
      rules ++ if w.kind.isWrapper then rulesWithin keys ++ s.allRules else [] := rfl
  rw [inside, isWrapper_kind, if_pos rfl]

theorem allRules_withRules (s : Shape) (more : List Rule) : (s.withRules more).allRules.Perm (s.allRules ++ more) := by
  obtain ⟨kind, rules, type, inner, keys, target, cases, tag⟩ := s
  simp only [withRules, allRules, Shape.kind, Shape.rules, Shape.keys, Shape.inner, List.append_assoc]
  exact (List.perm_append_comm).append_left rules

/-- Placing a rule puts it at one level more, and changes nothing else. -/
theorem Places.allRules_perm {kinds : List FieldKind} {rule : Rule} {s placed : Shape} (h : Places kinds rule s placed) :
    placed.allRules.Perm (s.allRules ++ [rule]) := by
  induction h with
  | @here kind rules type inner keys target cases tag =>
    exact allRules_withRules (.mk kind rules type inner keys target cases tag) [rule]
  | @inside _ rules _ _ _ _ _ _ _ _ wrapper _ ih =>
    simp only [allRules, rulesWithin, wrapper, if_true, List.append_assoc]
    exact (ih.append_left _).append_left rules
  | fresh _ wrapper =>
    simp only [allRules, rulesWithin, wrapper, if_true, List.append_assoc, allRules_scalar, List.nil_append]
    exact .refl _

/-- Every level keeps its place when a rule is placed, and takes it in or not. -/
theorem Places.at?_grown {kinds : List FieldKind} {rule : Rule} {s placed : Shape} (h : Places kinds rule s placed) :
    ∀ {way : List Turn} {c : Shape}, s.at? way = some c →
      ∃ c' more, placed.at? way = some c' ∧ more.Sublist [rule] ∧ c.Grown c' more := by
  induction h with
  | @here kind rules type inner keys target cases tag =>
    -- The rule stays here: the level grows, and nothing below it changes.
    intro way c hc
    cases way with
    | nil =>
      cases hc
      exact ⟨_, [rule], rfl, .refl _, rfl, rfl, rfl, rfl, rfl⟩
    | cons turn way =>
      have same : (Shape.mk kind (rules ++ [rule]) type inner keys target cases tag).at? (turn :: way)
          = (Shape.mk kind rules type inner keys target cases tag).at? (turn :: way) := at?_below (by rfl) (by rfl) (by rfl) turn way
      exact ⟨c, [], same.trans hc, List.nil_sublist _, .refl c⟩
  -- The rule goes inside: only the ways that go there too can meet it.
  | inside _ wrapper _ ih =>
    rintro (_ | ⟨_ | _ | _ | _, way⟩) c hc
    · cases hc
      exact ⟨_, [], rfl, List.nil_sublist _, rfl, rfl, rfl, rfl, (List.append_nil _).symm⟩
    · simp only [at?, content, Shape.kind, Shape.inner, wrapper, if_true, Option.bind_some, Option.getD_some] at hc ⊢
      exact ih hc
    · exact ⟨c, [], hc, List.nil_sublist _, .refl c⟩
    · cases hc
    · cases hc
  | fresh _ wrapper =>
    rintro (_ | ⟨_ | _ | _ | _, way⟩) c hc
    · cases hc
      exact ⟨_, [], rfl, List.nil_sublist _, rfl, rfl, rfl, rfl, (List.append_nil _).symm⟩
    · simp only [at?, content, Shape.kind, Shape.inner, wrapper, if_true, Option.bind_some, Option.getD_some] at hc ⊢
      rcases way with _ | ⟨_ | _ | _ | _, way⟩ <;> cases hc
      exact ⟨_, [rule], rfl, .refl _, rfl, rfl, rfl, rfl, rfl⟩
    · exact ⟨c, [], hc, List.nil_sublist _, .refl c⟩
    · cases hc
    · cases hc

end Shape

/-! ### Compiling -/

theorem Value.assign_fresh {α : Type} {key : Value} {a : α} : ∀ {entries : List (Value × α)},
    (∀ e ∈ entries, e.1.same key = false) → assign key a entries = entries ++ [(key, a)]
  | [], _ => rfl
  | (k, b) :: rest, fresh => by
    rw [assign, fresh (k, b) List.mem_cons_self, if_neg Bool.false_ne_true,
      assign_fresh fun e he => fresh e (List.mem_cons_of_mem _ he)]
    rfl

theorem forall₂_of_mapM {α β : Type} {f : α → Except Fault β} : ∀ {xs : List α} {ys : List β}, xs.mapM f = .ok ys →
    List.Forall₂ (fun x y => f x = .ok y) xs ys
  | [], ys, h => by
    cases h
    exact .nil
  | x :: xs, ys, h => by
    rw [List.mapM_cons] at h
    obtain ⟨y, hy, h⟩ := Except.bind_eq_ok.mp h
    obtain ⟨ys', hys, h⟩ := Except.bind_eq_ok.mp h
    cases h
    exact .cons hy (forall₂_of_mapM hys)

theorem mapM_map {α β : Type} {f : α → Except Fault β} {g : β → α} (each : ∀ x y, f x = .ok y → g y = x) :
    ∀ {xs : List α} {ys : List β}, xs.mapM f = .ok ys → ys.map g = xs
  | [], ys, h => by
    cases h
    rfl
  | x :: xs, ys, h => by
    rw [List.mapM_cons] at h
    obtain ⟨y, hy, h⟩ := Except.bind_eq_ok.mp h
    obtain ⟨ys', hys, h⟩ := Except.bind_eq_ok.mp h
    cases h
    rw [List.map_cons, each x y hy, mapM_map each hys]

namespace Workshop
variable {w : Workshop} {site : Site} (resolver : w.resolver = none)
include resolver

theorem resolve_eq (f : ConstraintFunction) (param : Value) : w.resolve f param = .ok param := by
  rw [resolve, resolver]

/-- A bound rule was declared as the rule that it binds. -/
theorem bindRule_declared {shape : Shape} {rule : Rule} {bound : BoundRule} (h : w.bindRule shape site rule = .ok bound) :
    bound.declared = rule := by
  obtain ⟨hf, -, resolved, -⟩ := bindRule_cases h
  have param : rule.param = bound.param := Except.ok.inj ((resolve_eq resolver bound.function rule.param).symm.trans resolved)
  rw [BoundRule.declared, BoundRule.name, name_of_lookUp hf, ← param]

theorem bindRules_declared {shape : Shape} {bound : List BoundRule} (h : w.bindRules shape site [] = .ok bound) :
    bound.map BoundRule.declared = shape.rules := by
  unfold bindRules at h
  obtain ⟨own, hown, h⟩ := Except.bind_eq_ok.mp h
  obtain ⟨u, -, h⟩ := Except.bind_eq_ok.mp h
  cases h
  exact mapM_map (fun rule b => bindRule_declared resolver) hown

/-- A level keeps its rules when it is compiled. -/
theorem compile_rules {s : Shape} {n : Node} (h : w.compile site s = .ok n) : n.rules.map BoundRule.declared = s.rules := by
  obtain ⟨kind, rules, type, inner, keys, target, cases, tag⟩ := s
  obtain ⟨bound, hbound, shaped⟩ := compile_cases h
  have declared := bindRules_declared resolver hbound
  obtain ⟨-, -, rfl⟩ | ⟨wr, -, i, k, -, -, rfl⟩ | ⟨-, -, rfl⟩ | ⟨-, all, done, -, -, -, rfl⟩ := shaped <;> exact declared

omit resolver in
/-- What is inside a level is compiled to what is inside its node. -/
theorem compile_content {s c : Shape} {n : Node} (h : w.compile site s = .ok n) (hc : s.content = some c) :
    ∃ m, n.content = some m ∧ w.compile site c = .ok m := by
  obtain ⟨kind, rules, type, inner, keys, target, cases, tag⟩ := s
  obtain ⟨bound, hbound, shaped⟩ := compile_cases h
  obtain ⟨rfl, -, rfl⟩ | ⟨wr, rfl, i, k, hi, -, rfl⟩ | ⟨rfl, -, rfl⟩ | ⟨rfl, all, done, -, -, -, rfl⟩ := shaped
  · cases hc
  · refine ⟨i, rfl, ?_⟩
    simp only [Shape.content, Shape.kind, Shape.isWrapper_kind, if_true, Option.some.injEq] at hc
    subst hc
    cases inner with
    | none => exact hi
    | some s => rwa [compileInner] at hi
  · cases hc
  · cases hc

omit resolver in
theorem compile_entryKeys {s c : Shape} {n : Node} (h : w.compile site s = .ok n) (hc : s.entryKeys = some c) :
    ∃ m, n.entryKeys = some m ∧ w.compile site c = .ok m := by
  obtain ⟨kind, rules, type, inner, keys, target, cases, tag⟩ := s
  obtain ⟨bound, hbound, shaped⟩ := compile_cases h
  obtain ⟨rfl, -, rfl⟩ | ⟨wr, rfl, i, k, -, hk, rfl⟩ | ⟨rfl, -, rfl⟩ | ⟨rfl, all, done, -, -, -, rfl⟩ := shaped
  · cases hc
  · simp only [Shape.entryKeys, Shape.kind, Shape.isWrapper_kind, if_true] at hc
    change keys = some c at hc
    subst hc
    rw [compileKeys] at hk
    obtain ⟨m, hm, hk⟩ := Except.bind_eq_ok.mp hk
    cases hk
    exact ⟨m, rfl, hm⟩
  · cases hc
  · cases hc

omit resolver in
/-- Every level of a shape is compiled to the level of the node at the same place. -/
theorem compile_at : ∀ {way : List Turn} {s c : Shape} {n : Node}, w.compile site s = .ok n → s.at? way = some c →
    ∃ m, n.at? way = some m ∧ w.compile site c = .ok m
  | [], s, c, n, h, hc => by
    cases hc
    exact ⟨n, rfl, h⟩
  | .inner :: way, s, c, n, h, hc => by
    obtain ⟨s', hs', hc⟩ := Option.bind_eq_some_iff.mp hc
    obtain ⟨n', hn', h'⟩ := compile_content h hs'
    obtain ⟨m, hm, h⟩ := compile_at h' hc
    exact ⟨m, Option.bind_eq_some_iff.mpr ⟨n', hn', hm⟩, h⟩
  | .keys :: way, s, c, n, h, hc => by
    obtain ⟨s', hs', hc⟩ := Option.bind_eq_some_iff.mp hc
    obtain ⟨n', hn', h'⟩ := compile_entryKeys h hs'
    obtain ⟨m, hm, h⟩ := compile_at h' hc
    exact ⟨m, Option.bind_eq_some_iff.mpr ⟨n', hn', hm⟩, h⟩
  | .case _ :: way, s, c, n, h, hc => by cases hc
  | .field _ :: way, s, c, n, h, hc => by cases hc

/-- A node has the rules of its shape and no others. -/
theorem compile_allRules : ∀ (s : Shape) {n : Node}, w.compile site s = .ok n → n.allRules = s.allRules
  | .mk kind rules type inner keys target cases tag, n, h => by
    obtain ⟨bound, hbound, shaped⟩ := compile_cases h
    have declared := bindRules_declared resolver hbound
    obtain ⟨rfl, -, rfl⟩ | ⟨wr, rfl, i, k, hi, hk, rfl⟩ | ⟨rfl, -, rfl⟩ | ⟨rfl, all, done, -, -, -, rfl⟩ := shaped
    · simpa [Node.allRules, Shape.allRules, FieldKind.isWrapper, Shape.rules] using declared
    · have within : i.allRules = Shape.rulesWithin inner := by
        cases inner with
        | none =>
          rw [compileInner] at hi
          cases hi
          rfl
        | some s =>
          rw [compileInner] at hi
          rw [Shape.rulesWithin]
          exact compile_allRules s hi
      have keysWithin : Node.rulesWithin k = Shape.rulesWithin keys := by
        cases keys with
        | none =>
          rw [compileKeys] at hk
          cases hk
          rfl
        | some s =>
          rw [compileKeys] at hk
          obtain ⟨m, hm, hk⟩ := Except.bind_eq_ok.mp hk
          cases hk
          rw [Shape.rulesWithin, Node.rulesWithin]
          exact compile_allRules s hm
      rw [Node.allRules, Shape.allRules, declared, keysWithin, Node.rulesWithin, within, Shape.isWrapper_kind, if_pos rfl]
      rfl
    · simpa [Node.allRules, Shape.allRules, FieldKind.isWrapper, Shape.rules] using declared
    · simpa [Node.allRules, Shape.allRules, FieldKind.isWrapper, Shape.rules] using declared

omit resolver in
/-- Cases whose names are different texts are compiled one by one, and none takes the place of another. -/
theorem compileCases_pairs : ∀ {texts : List String} {all : List (Value × Payload)} {done made : List (Value × Option Node)},
    all.map Prod.fst = texts.map Value.text → texts.Nodup → (∀ e ∈ done, ∀ t ∈ texts, e.1.same (.text t) = false) →
    w.compileCases site all done = .ok made → ∃ nodes, made = done ++ nodes ∧
      List.Forall₂ (fun e d => e.1 = d.1 ∧ w.compilePayload { site with variant := some e.1 } e.2 = .ok d.2) all nodes
  | [], [], done, made, _, _, _, h => by
    rw [compileCases] at h
    cases h
    exact ⟨[], (List.append_nil _).symm, .nil⟩
  | t :: texts, (name, payload) :: rest, done, made, names, nodup, fresh, h => by
    rw [List.map_cons, List.map_cons, List.cons.injEq] at names
    obtain ⟨rfl, names⟩ := names
    obtain ⟨new, nodup⟩ := List.nodup_cons.mp nodup
    rw [compileCases] at h
    obtain ⟨n, hn, h⟩ := Except.bind_eq_ok.mp h
    rw [Value.str, Value.assign_fresh fun e he => fresh e he t List.mem_cons_self] at h
    -- The case that was just compiled is as different from those to come as the ones before it.
    have later : ∀ e ∈ done ++ [(.text t, n)], ∀ t' ∈ texts, e.1.same (.text t') = false := by
      intro e he t' ht'
      rcases List.mem_append.mp he with he | he
      · exact fresh e he t' (List.mem_cons_of_mem _ ht')
      · cases List.mem_singleton.mp he
        rw [Value.same_text]
        exact beq_false_of_ne fun same => new (same ▸ ht')
    obtain ⟨nodes, rfl, pairs⟩ := compileCases_pairs names nodup later h
    exact ⟨(.text t, n) :: nodes, by rw [List.append_assoc]; rfl, .cons ⟨rfl, hn⟩ pairs⟩
  | [], _ :: _, _, _, names, _, _, _ => by cases names
  | _ :: _, [], _, _, names, _, _, _ => by cases names

omit resolver in
/-- Such cases keep their names, and each of them is compiled. -/
theorem compileCases_each {texts : List String} {all : List (Value × Payload)} {done made : List (Value × Option Node)}
    (names : all.map Prod.fst = texts.map Value.text) (nodup : texts.Nodup)
    (fresh : ∀ e ∈ done, ∀ t ∈ texts, e.1.same (.text t) = false) (h : w.compileCases site all done = .ok made) :
    ∃ nodes, made = done ++ nodes ∧ nodes.map Prod.fst = all.map Prod.fst ∧
      ∀ e ∈ all, ∃ n, w.compilePayload { site with variant := some e.1 } e.2 = .ok n ∧ (e.1, n) ∈ nodes := by
  obtain ⟨nodes, rfl, pairs⟩ := compileCases_pairs names nodup fresh h
  refine ⟨nodes, rfl, ?_⟩
  clear h names nodup
  induction pairs with
  | nil => exact ⟨rfl, nofun⟩
  | @cons e d all nodes pair _ ih =>
    obtain ⟨named, compiled⟩ := pair
    obtain ⟨names, each⟩ := ih
    refine ⟨by rw [List.map_cons, List.map_cons, names, named], List.forall_mem_cons.mpr ⟨?_, fun e he => ?_⟩⟩
    · exact ⟨d.2, compiled, named ▸ List.mem_cons_self⟩
    · obtain ⟨n, hn, hm⟩ := each e he
      exact ⟨n, hn, List.mem_cons_of_mem _ hm⟩

omit resolver in
/-- A level that leads to the schema of a class is compiled to one that does. -/
theorem compile_offers {s s' : Shape} {more : List Rule} {n : Node} {c : ClassRef} {attributes : List (String × Value)}
    (known : w.isScalarClass (.value (.cls c attributes)) = false) (grown : s.Grown s' more)
    (h : w.compile site s' = .ok n) (offers : s.Offers (.cls c attributes)) : n.Offers (.cls c attributes) := by
  obtain ⟨kind, rules, type, inner, keys, target, cases, tag⟩ := s'
  obtain ⟨kind_eq, -, target_eq, cases_eq, -⟩ := grown
  obtain ⟨bound, -, shaped⟩ := compile_cases h
  cases offers with
  | nested =>
    cases kind_eq
    cases target_eq
    obtain ⟨not, -⟩ | ⟨wr, not, -⟩ | ⟨-, -, rfl⟩ | ⟨not, -⟩ := shaped
    · cases not
    · cases wr <;> cases not
    · exact .nested
    · cases not
  | @case _ all name names hm =>
    obtain ⟨texts, names, nodup⟩ := names
    cases kind_eq
    cases cases_eq
    obtain ⟨not, -⟩ | ⟨wr, not, -⟩ | ⟨not, -⟩ | ⟨-, all, made, all_eq, -, hmade, rfl⟩ := shaped
    · cases not
    · cases wr <;> cases not
    · cases not
    · cases all_eq
      obtain ⟨nodes, rfl, -, each⟩ := compileCases_each names nodup (fun e he => (List.not_mem_nil he).elim) hmade
      obtain ⟨node, hnode, hm⟩ := each _ hm
      rw [compilePayload, known, if_neg Bool.false_ne_true] at hnode
      · obtain ⟨u, -, hnode⟩ := Except.bind_eq_ok.mp hnode
        cases hnode
        exact .case hm
      · exact nofun

end Workshop

/-! ### Fields -/

namespace SchemaBuilder
variable {site : Site} {w : Workshop}

/-- Placing the rules of a field adds each of them once, in order, and keeps every level in its place. -/
theorem placeAll_keeps : ∀ {rules : List Rule} {s placed : Shape}, rules.foldlM (placeRule site w) s = .ok placed →
    placed.allRules.Perm (s.allRules ++ rules) ∧
      ∀ {way : List Turn} {c : Shape}, s.at? way = some c →
        ∃ c' more, placed.at? way = some c' ∧ more.Sublist rules ∧ c.Grown c' more
  | [], s, placed, h => by
    cases h
    exact ⟨by rw [List.append_nil], fun hc => ⟨_, [], hc, .refl _, .refl _⟩⟩
  | rule :: rules, s, placed, h => by
    rw [List.foldlM_cons] at h
    obtain ⟨s', hs', h⟩ := Except.bind_eq_ok.mp h
    obtain ⟨all, levels⟩ := placeAll_keeps h
    obtain ⟨kinds, first⟩ := places_of_placeRule hs'
    refine ⟨?_, fun hc => ?_⟩
    · have one := first.allRules_perm.append_right rules
      rw [List.append_assoc] at one
      exact all.trans one
    · obtain ⟨c', more, hc', sub, grown⟩ := first.at?_grown hc
      obtain ⟨c'', later, hc'', sub', grown'⟩ := levels hc'
      exact ⟨c'', more ++ later, hc'', sub.append sub', grown.trans grown'⟩

/-- The node of a field has the rules of its shape and the rules of the field, and no others. Each level of the
shape is compiled at its place, with some of the rules of the field after its own. -/
theorem fieldNode_keeps {b : SchemaBuilder} {h : Host} {t : FunctionTable} (resolver : b.resolver = none) {s : Shape}
    {rules : List Rule} {n : Node} (hn : b.fieldNode h t site s rules = .ok n) :
    n.allRules.Perm (s.allRules ++ rules) ∧
      ∀ {way : List Turn} {c : Shape}, s.at? way = some c →
        ∃ m c' more, n.at? way = some m ∧ (b.workshop h t).compile site c' = .ok m ∧ c.Grown c' more ∧
          more.Sublist rules ∧ m.rules.map BoundRule.declared = c.rules ++ more := by
  obtain ⟨placed, hplaced, hnode⟩ := Except.bind_eq_ok.mp hn
  have noResolver : (b.workshop h t).resolver = none := resolver
  obtain ⟨all, levels⟩ := placeAll_keeps hplaced
  refine ⟨?_, fun hc => ?_⟩
  · rw [Workshop.compile_allRules noResolver placed hnode]
    exact all
  · obtain ⟨c', more, hc', sub, grown⟩ := levels hc
    obtain ⟨m, hm, compiled⟩ := Workshop.compile_at hnode hc'
    exact ⟨m, c', more, hm, compiled, grown, sub, (Workshop.compile_rules noResolver compiled).trans grown.rules⟩

end SchemaBuilder
end Conform
