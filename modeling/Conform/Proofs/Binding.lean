import Conform.Proofs.Levels
import Conform.Proofs.Requests
import Mathlib.Data.List.Forall2

/-!
Which function a rule runs. A rule is bound when it is declared, to the function that the table has under its name at
that moment, and the table stays open until the schema is built; so what the frozen table gives for the name
of a rule is what the rule runs, unless the name was disturbed between the declaration and the end.
-/

namespace Conform

/-- The rules of a schema: those of all levels of its fields, and its checks. -/
def Schema.everyRule (u : Schema) : List BoundRule :=
  (u.fields.flatMap fun e => e.2.levels.flatMap Node.rules) ++ u.checks

/-- What a request adds to a builder. -/
structure Addition where
  fields : List (Value × Node) := []
  checks : List BoundRule := []

/-- The rules that are added: those of all levels of the fields, and the checks. -/
def Addition.everyRule (a : Addition) : List BoundRule :=
  (a.fields.flatMap fun e => e.2.levels.flatMap Node.rules) ++ a.checks

namespace Request

/-- The requests that can take the function of a name away, or put another in its place. -/
def Disturbs (name : String) : Request → Prop
  | .register f overwrite | .define f overwrite => f.name = name ∧ overwrite = true
  | .unregister key => key.asText? = some name
  | .clear => True
  | _ => False

end Request

/-- In paired lists, whatever is on the right has something on the left. -/
theorem exists_of_mem_paired {α β : Type} {R : α → β → Prop} {xs : List α} {ys : List β} (paired : List.Forall₂ R xs ys) {y : β}
    (hy : y ∈ ys) : ∃ x ∈ xs, R x y := by
  induction paired with
  | nil => cases hy
  | cons related _ ih =>
    rcases List.mem_cons.mp hy with rfl | hy
    · exact ⟨_, List.mem_cons_self, related⟩
    · obtain ⟨x, hx, related⟩ := ih hy
      exact ⟨x, List.mem_cons_of_mem _ hx, related⟩

/-! ### Tables -/

namespace FunctionTable
variable {t t' : FunctionTable} {f g : ConstraintFunction} {name : String}

theorem find?_put_other (hn : f.name ≠ name) : ∀ fs : List ConstraintFunction,
    (put f fs).find? (fun g => g.name == name) = fs.find? fun g => g.name == name
  | [] => by simp [put, hn]
  | g :: rest => by
    unfold put
    split
    · next same =>
      have hg : g.name ≠ name := same ▸ hn
      simp [hn, hg]
    · simp only [List.find?_cons, find?_put_other hn rest]

theorem register_keeps {overwrite : Bool} (registered : t.register f overwrite = .ok t') (found : t.find? name = some g)
    (calm : ¬(f.name = name ∧ overwrite = true)) : t'.find? name = some g := by
  unfold register at registered
  split at registered
  · cases registered
  split at registered
  · cases registered
  next free =>
  cases registered
  by_cases hn : f.name = name
  · -- The name is taken, so registering it again without overwriting was refused.
    have kept : overwrite = false := by simpa [hn] using calm
    subst hn
    simp [kept, has, found] at free
  · unfold find? at found ⊢
    rwa [find?_put_other hn]

theorem find?_filter_of_imp {fs : List ConstraintFunction} {p q : ConstraintFunction → Bool} (found : fs.find? q = some f)
    (stays : ∀ g, q g = true → p g = true) : (fs.filter p).find? q = some f := by
  have both : (fun g => decide (p g = true ∧ q g = true)) = q := by
    funext g
    cases hq : q g
    · simp
    · simp [stays g hq]
  rw [List.find?_filter, both, found]

theorem unregister_keeps {key : Value} {removed : ConstraintFunction × FunctionTable} (h : t.unregister key = .ok removed)
    (found : t.find? name = some g) (calm : key.asText? ≠ some name) : removed.2.find? name = some g := by
  unfold unregister at h
  split at h
  · cases h
  obtain ⟨n, hn, h⟩ := Except.bind_eq_ok.mp h
  have text : n = key.asText? := by
    unfold keyName at hn
    split at hn <;> cases hn
    rfl
  split at h
  · next f hf =>
    cases h
    obtain ⟨key', hkey, hf⟩ := Option.bind_eq_some_iff.mp hf
    have removedName : f.name = key' := by simpa using List.find?_some hf
    refine find?_filter_of_imp found fun k hk => ?_
    have other : key' ≠ name := fun same => calm (text ▸ same ▸ hkey)
    rw [beq_iff_eq] at hk
    simp [removedName, hk, other.symm]
  · cases h

end FunctionTable

theorem ConstraintFunction.described_name (f : ConstraintFunction) : f.described.name = f.name := by
  unfold described
  split <;> rfl

/-! ### Requests -/

namespace Request
variable {h : Host} {r : Request} {b b' : SchemaBuilder} {t t' : FunctionTable} {name : String} {f : ConstraintFunction}

/-- A request that does not disturb a name leaves the function of the name in the table. -/
theorem turn_keeps (turned : r.turn h b t = .ok (b', t')) (found : t.find? name = some f) (calm : ¬r.Disturbs name) :
    t'.find? name = some f := by
  cases r with
  | field | check | compileShape =>
    obtain ⟨_, _, heq⟩ := Except.map_eq_ok.mp turned
    cases heq
    exact found
  | describe | build | freeze =>
    cases turned
    exact found
  | register g overwrite =>
    obtain ⟨t₁, registered, heq⟩ := Except.map_eq_ok.mp turned
    cases heq
    exact FunctionTable.register_keeps registered found calm
  | define g overwrite =>
    obtain ⟨t₁, registered, heq⟩ := Except.map_eq_ok.mp turned
    cases heq
    exact FunctionTable.register_keeps registered found (by rwa [g.described_name])
  | unregister key =>
    obtain ⟨removed, hremoved, heq⟩ := Except.map_eq_ok.mp turned
    cases heq
    exact FunctionTable.unregister_keeps hremoved found calm
  | clear => exact (calm trivial).elim

end Request

/-! ### Occasions -/

/-- A request that succeeds, at its place in a script: the session that it meets, and the requests that succeed after it. -/
structure Occasion where
  session : Session
  host : Host
  request : Request
  later : Script

namespace Occasion

/-- What a request adds to the builder at an occasion: a field that is compiled with the table as it is then, or checks that
are bound with it. -/
inductive Adds (builder table : Nat) (m : Occasion) : Addition → Prop
  | field {b : SchemaBuilder} {t : FunctionTable} {name : Value} {shape : ShapeSpelling} {rules : List RuleSpelling}
    {named : List (String × Value)} {n : Node} (asked : m.request = .field name shape rules named)
    (holds : m.session.Holds builder table b t)
    (declared : b.field m.host t name shape rules named = .ok { b with fields := b.fields ++ [(name, n)] }) :
    Adds builder table m { fields := [(name, n)] }
  | check {b : SchemaBuilder} {t : FunctionTable} {rules : List RuleSpelling} {named : List (String × Value)}
    {bound : List BoundRule} (asked : m.request = .check rules named) (holds : m.session.Holds builder table b t)
    (declared : b.check m.host t rules named = .ok { b with checks := b.checks ++ bound }) :
    Adds builder table m { checks := bound }
  | nothing (other : ¬m.request.Declares) : Adds builder table m {}

/-- A rule runs the function that the table has under its name at an occasion. The last table has it too, or a later request
disturbed the name. -/
structure Binds (table : Nat) (last : FunctionTable) (m : Occasion) (x : BoundRule) : Prop where
  found : (m.session.table table).find? x.name = some x.function
  stays : last.find? x.name = some x.function ∨ ∃ d ∈ m.later, d.2.Disturbs x.name

theorem Binds.freeze {table : Nat} {last : FunctionTable} {m : Occasion} {x : BoundRule} (binds : m.Binds table last x) :
    m.Binds table last.freeze x := ⟨binds.found, binds.stays⟩

end Occasion

theorem Addition.mem_everyRule {a : Addition} {x : BoundRule} :
    x ∈ a.everyRule ↔ (∃ e ∈ a.fields, ∃ n ∈ e.2.levels, x ∈ n.rules) ∨ x ∈ a.checks := by
  simp [everyRule]

/-- What is added one after the other has the rules that each addition has. -/
theorem Addition.mem_everyRule_flatMap {added : List Addition} {x : BoundRule} :
    x ∈ (Addition.mk (added.flatMap fields) (added.flatMap checks)).everyRule ↔ ∃ a ∈ added, x ∈ a.everyRule := by
  simp only [mem_everyRule, List.mem_flatMap]
  constructor
  · rintro (⟨e, ⟨a, ha, he⟩, inside⟩ | ⟨a, ha, hx⟩)
    · exact ⟨a, ha, .inl ⟨e, he, inside⟩⟩
    · exact ⟨a, ha, .inr hx⟩
  · rintro ⟨a, ha, ⟨e, he, inside⟩ | hx⟩
    · exact .inl ⟨e, ⟨a, ha, he⟩, inside⟩
    · exact .inr ⟨a, ha, hx⟩

namespace Request
variable {h : Host} {r : Request} {s : Session} {builder table : Nat} {b b' : SchemaBuilder} {t t' : FunctionTable}

/-- What a request adds to the builder has rules of the table only, and the table stays as it is when there are any. -/
theorem turn_adds (holds : s.Holds builder table b t) (turned : r.turn h b t = .ok (b', t')) (later : Script) :
    ∃ a : Addition, Occasion.Adds builder table ⟨s, h, r, later⟩ a ∧ b'.fields = b.fields ++ a.fields ∧
      b'.checks = b.checks ++ a.checks ∧ ∀ x ∈ a.everyRule, t.find? x.name = some x.function ∧ t' = t := by
  rcases turn_cases turned with ⟨name, shape, rules, named, rfl, hf, rfl⟩ | ⟨rules, named, rfl, hc, rfl⟩ | ⟨other, d, rfl⟩
  · obtain ⟨-, site, s', n, hn, rfl⟩ := SchemaBuilder.field_cases hf
    refine ⟨_, .field rfl holds hf, rfl, (List.append_nil _).symm, fun x hx => ⟨?_, rfl⟩⟩
    rcases Addition.mem_everyRule.mp hx with ⟨e, he, m, hm, hx⟩ | hx
    · cases List.mem_singleton.mp he
      obtain ⟨_, _, -, -, fits⟩ := (Workshop.compile_levels site s' hn m hm).rules
      exact (fits x hx).found
    · cases hx
  · obtain ⟨declared, site, checks, hchecks, rfl⟩ := SchemaBuilder.check_cases hc
    obtain ⟨bound, rfl, fits, -⟩ := Workshop.bindRules_ok hchecks
    refine ⟨_, .check rfl holds hc, (List.append_nil _).symm, rfl, fun x hx => ⟨?_, rfl⟩⟩
    rcases Addition.mem_everyRule.mp hx with ⟨e, he, -⟩ | hx
    · cases he
    · exact (fits x hx).found
  · refine ⟨_, .nothing other, (List.append_nil _).symm, (List.append_nil _).symm, fun x hx => ?_⟩
    rcases Addition.mem_everyRule.mp hx with ⟨e, he, -⟩ | hx
    · cases he
    · cases hx

end Request

/-! ### Scripts -/

namespace Script
variable {builder table : Nat} {b b' : SchemaBuilder} {t t' : FunctionTable} {s : Session}

/-- The requests of a script that succeed when it is run, each at its place. -/
def occasions (builder table : Nat) : Script → Session → List Occasion
  | [], _ => []
  | (h, r) :: rest, s =>
    let made := (r.perform h builder table).runWith s
    let after := occasions builder table rest made.2
    if made.1.isOk then ⟨s, h, r, succeeding builder table rest made.2⟩ :: after else after

/-- What succeeds after an occasion of a script succeeds in the script. -/
theorem later_subset {m : Occasion} : ∀ (script : Script) {s : Session}, m ∈ script.occasions builder table s →
    m.later ⊆ script.succeeding builder table s
  | [], s, hm => by cases hm
  | (h, r) :: rest, s, hm => by
    rw [occasions] at hm
    rw [succeeding]
    by_cases made : ((r.perform h builder table).runWith s).1.isOk = true
    · simp only [if_pos made] at hm ⊢
      rcases List.mem_cons.mp hm with rfl | hm
      · exact List.subset_cons_self ..
      · exact List.subset_cons_of_subset _ (later_subset rest hm)
    · simp only [if_neg made] at hm ⊢
      exact later_subset rest hm

/-- A function stays in the table as long as no request that succeeds disturbs its name. -/
theorem run_keeps {name : String} {f : ConstraintFunction} : ∀ (script : Script) {s : Session} {b b' : SchemaBuilder}
    {t t' : FunctionTable}, s.Holds builder table b t → (script.run builder table s).2.Holds builder table b' t' →
    t.find? name = some f → t'.find? name = some f ∨ ∃ d ∈ script.succeeding builder table s, d.2.Disturbs name
  | [], s, b, b', t, t', holds, holds', found => by
    obtain ⟨-, rfl⟩ := holds.unique holds'
    exact .inl found
  | (h, r) :: rest, s, b, b', t, t', holds, holds', found => by
    rcases run_cases holds h r rest with ⟨same, after⟩ | ⟨s₁, b₁, t₁, turned, holds₁, -, same, after⟩
    · rw [same] at holds'
      rw [after]
      exact run_keeps rest holds holds' found
    · rw [same] at holds'
      rw [after]
      by_cases calm : r.Disturbs name
      · exact .inr ⟨(h, r), List.mem_cons_self, calm⟩
      · refine (run_keeps rest holds₁ holds' (Request.turn_keeps turned found calm)).imp_right ?_
        rintro ⟨d, hd, disturbs⟩
        exact ⟨d, List.mem_cons_of_mem _ hd, disturbs⟩

/-- A script adds to the builder what each of its requests adds at its occasion, one after the other; the rules that
are added at an occasion are bound then. -/
theorem run_adds : ∀ (script : Script) {s : Session} {b b' : SchemaBuilder} {t t' : FunctionTable},
    s.Holds builder table b t → (script.run builder table s).2.Holds builder table b' t' →
      ∃ added : List Addition,
        List.Forall₂ (fun m a => m.Adds builder table a ∧ ∀ x ∈ a.everyRule, m.Binds table t' x)
          (script.occasions builder table s) added ∧
        b'.fields = b.fields ++ added.flatMap Addition.fields ∧ b'.checks = b.checks ++ added.flatMap Addition.checks
  | [], s, b, b', t, t', holds, holds' => by
    obtain ⟨rfl, -⟩ := holds.unique holds'
    exact ⟨[], .nil, (List.append_nil _).symm, (List.append_nil _).symm⟩
  | (h, r) :: rest, s, b, b', t, t', holds, holds' => by
    rcases Request.perform_cases holds h r with ⟨f, failed⟩ | ⟨v, s₁, b₁, t₁, made, turned, holds₁, -⟩
    · have missed : occasions builder table ((h, r) :: rest) s = occasions builder table rest s := by
        rw [occasions, failed]
        rfl
      rw [run, failed] at holds'
      rw [missed]
      exact run_adds rest holds holds'
    · have met : occasions builder table ((h, r) :: rest) s
          = ⟨s, h, r, succeeding builder table rest s₁⟩ :: occasions builder table rest s₁ := by
        rw [occasions, made]
        rfl
      rw [run, made] at holds'
      obtain ⟨a, adds, fields, checks, known⟩ := Request.turn_adds holds turned (succeeding builder table rest s₁)
      obtain ⟨added, each, fields', checks'⟩ := run_adds rest holds₁ holds'
      rw [met]
      refine ⟨a :: added, .cons ⟨adds, fun x hx => ?_⟩ each, ?_, ?_⟩
      · obtain ⟨found, rfl⟩ := known x hx
        exact ⟨holds.table_eq.symm ▸ found, run_keeps rest holds₁ holds' found⟩
      · rw [fields', fields, List.append_assoc, List.flatMap_cons]
      · rw [checks', checks, List.append_assoc, List.flatMap_cons]

end Script

namespace SchemaBuilder
variable {builder table : Nat} {b : SchemaBuilder} {t : FunctionTable} {s : Session}

/-- The fields and the checks of a schema are those that the requests of the script added, one after the other, and each
rule among them runs the function that the table had under its name on the occasion of its request. That is what the frozen
table has under the name, unless the name was disturbed since; so rules of one name run one function as long as nothing
disturbs the name. -/
theorem build_binds (holds : s.Holds builder table b t) (fields : b.fields = []) (checks : b.checks = []) (script : Script)
    (h : Host) :
    ∃ (u : Schema) (final : Session) (added : List Addition),
      (Request.build.perform h builder table).runWith (script.run builder table s).2 = (.ok u.toObject, final) ∧
      final.schema? u.serial = some u ∧ (final.table table).frozen = true ∧
      List.Forall₂ (fun m a => m.Adds builder table a ∧ ∀ x ∈ a.everyRule, m.Binds table (final.table table) x)
        (script.occasions builder table s) added ∧
      u.fields = added.flatMap Addition.fields ∧ u.checks = added.flatMap Addition.checks ∧
      ∀ x ∈ u.everyRule, ∀ y ∈ u.everyRule, x.name = y.name → x.function = y.function ∨
        ∃ d ∈ script.succeeding builder table s, d.2.Disturbs x.name := by
  obtain ⟨b', t', holds', -⟩ := script.run_holds holds
  obtain ⟨final, built, holdsFinal, remembered, -⟩ := Request.build_ok holds' h
  obtain ⟨added, each, fields', checks'⟩ := script.run_adds holds holds'
  rw [fields, List.nil_append] at fields'
  rw [checks, List.nil_append] at checks'
  have kept : ∀ x ∈ (b'.build (script.run builder table s).2.nextSerial).everyRule, t'.find? x.name = some x.function ∨
      ∃ d ∈ script.succeeding builder table s, d.2.Disturbs x.name := by
    intro x hx
    have hx : x ∈ (Addition.mk b'.fields b'.checks).everyRule := hx
    rw [fields', checks'] at hx
    obtain ⟨a, ha, hx⟩ := Addition.mem_everyRule_flatMap.mp hx
    obtain ⟨m, hm, -, binds⟩ := exists_of_mem_paired each ha
    exact (binds x hx).stays.imp_right fun ⟨d, hd, disturbs⟩ => ⟨d, script.later_subset hm hd, disturbs⟩
  have last : final.table table = t'.freeze := holdsFinal.table_eq
  refine ⟨_, final, added, built, remembered, ?_, ?_, fields', checks', fun x hx y hy name => ?_⟩
  · rw [last]
    rfl
  · rw [last]
    exact each.imp fun m a adds => ⟨adds.1, fun x hx => (adds.2 x hx).freeze⟩
  · rcases kept x hx with foundX | disturbed
    · rcases kept y hy with foundY | disturbed
      · exact .inl (Option.some.inj (foundX.symm.trans (name ▸ foundY)))
      · exact .inr (name ▸ disturbed)
    · exact .inr disturbed

/-- Two fields and a check under one name: another function takes the name between them, in a table that stays open. -/
theorem build_binds_of_registered :
    let s := ((do
      let _ ← Action.make (.table (.withBuiltins "numbers"))
      Action.make (.builder { name := .text "order" } 2) : Action Value).runWith .start).2
    let chk (name : String) : ConstraintFunction := { name := "chk", check := .custom (.function ⟨name, some name, "", "function"⟩) }
    let script : Script := [(.bare, .register (chk "even") false),
      (.bare, .field (.text "x") (.value (.cls (.builtin .int) [])) [.value (.text "chk")] []),
      (.bare, .register (chk "noop") true),
      (.bare, .field (.text "y") (.value (.cls (.builtin .int) [])) [.value (.text "chk")] []),
      (.bare, .check [.value (.text "chk")] [])]
    s.Holds 3 2 { name := .text "order" } (.withBuiltins "numbers") ∧
      (script.run 3 2 s).1.map Except.isOk = [true, true, true, true, true] ∧
      ∃ (u : Schema) (final : Session) (added : List Addition),
        (Request.build.perform .bare 3 2).runWith (script.run 3 2 s).2 = (.ok u.toObject, final) ∧
        (final.table 2).frozen = true ∧
        List.Forall₂ (fun m a => m.Adds 3 2 a ∧ ∀ x ∈ a.everyRule, m.Binds 2 (final.table 2) x) (script.occasions 3 2 s) added ∧
        u.fields = added.flatMap Addition.fields ∧ u.checks = added.flatMap Addition.checks := by
  intro s chk script
  have holds : s.Holds 3 2 { name := .text "order" } (.withBuiltins "numbers") := ⟨rfl, rfl⟩
  obtain ⟨u, final, added, built, -, frozen, each, fields, checks, -⟩ := build_binds holds rfl rfl script .bare
  exact ⟨holds, by decide +kernel, u, final, added, built, frozen, each, fields, checks⟩

/-- A function that is replaced after a field was declared with it: the schema still runs the old one. -/
theorem stale_binding :
    let s := ((do
      let _ ← Action.make (.table (.withBuiltins "numbers"))
      Action.make (.builder { name := .text "order" } 2) : Action Value).runWith .start).2
    let chk (name : String) : ConstraintFunction := { name := "chk", check := .custom (.function ⟨name, some name, "", "function"⟩) }
    let script : Script := [(.bare, .register (chk "even") false),
      (.bare, .field (.text "x") (.value (.cls (.builtin .int) [])) [.value (.text "chk")] []),
      (.bare, .register (chk "noop") true)]
    ∃ (u : Schema) (final : Session), (Request.build.perform .bare 3 2).runWith (script.run 3 2 s).2 = (.ok u.toObject, final) ∧
      ∃ x ∈ u.everyRule, (final.table 2).find? x.name ≠ some x.function := by
  intro s chk script
  have holds : (script.run 3 2 s).2.Holds 3 2
      { name := .text "order", fields := [(.text "x", .scalar [⟨chk "even", .absent⟩] (.cls (.builtin .int) []))] }
      ⟨"numbers", FunctionTable.builtins ++ [chk "noop"], false⟩ := by
    constructor <;> rfl
  obtain ⟨final, built, after, -⟩ := Request.build_ok holds .bare
  refine ⟨_, final, built, ⟨chk "even", .absent⟩, List.mem_cons_self, fun same => ?_⟩
  rw [after.table_eq] at same
  have functions : chk "noop" = chk "even" := Option.some.inj same
  simp [chk] at functions

end SchemaBuilder
end Conform
