import Conform.Proofs.Levels
import Conform.Proofs.Requests

/-!
Builders stay well formed. Whatever is asked of a builder, and whichever requests it refuses: its fields have different
names, every level of its nodes was compiled from a shape that the rules of the level fit, and its checks are
compatible although they come from several requests. A schema that it builds is as well formed as the builder.
-/

namespace Conform

/-- A node of which every level was compiled by one workshop, in a program among some. -/
def Node.WellFormed (hosts : List Host) (own : Value) (n : Node) : Prop :=
  ∃ w : Workshop, w.host ∈ hosts ∧ w.targetType = own ∧ ∀ m ∈ n.levels, w.Formed m

/-- Fields and checks as a builder for a class makes them, in programs among some. -/
structure WellDeclared (hosts : List Host) (own : Value) (fields : List (Value × Node)) (checks : List BoundRule) :
    Prop where
  names : fields.Pairwise fun e e' => e.1.eq e'.1 = false
  nodes : ∀ e ∈ fields, e.2.WellFormed hosts own
  bound : ∀ r ∈ checks, ∃ w : Workshop, w.host ∈ hosts ∧ w.targetType = own ∧
    ∃ rules, w.Fits (.nested (.value own) rules) r
  compatible : checks.Pairwise BoundRule.Compatible

def SchemaBuilder.WellFormed (hosts : List Host) (b : SchemaBuilder) : Prop :=
  WellDeclared hosts b.targetType b.fields b.checks

def Schema.WellFormed (hosts : List Host) (u : Schema) : Prop :=
  WellDeclared hosts u.targetType u.fields u.checks

/-- Every function of a table stands in another under the same name. -/
def FunctionTable.KeptBy (t t' : FunctionTable) : Prop := ∀ name f, t.find? name = some f → t'.find? name = some f

/-- A script that takes no function away from the table, and puts no other in its place. -/
def Script.Steady (builder table : Nat) : Script → Session → Prop
  | [], _ => True
  | (h, r) :: rest, s =>
    let s' := ((r.perform h builder table).runWith s).2
    (s.table table).KeptBy (s'.table table) ∧ Steady builder table rest s'

/-- The requests that only a builder sees. -/
def Request.toBuilder : Request → Bool
  | .field .. | .check .. | .describe _ | .compileShape _ | .build => true
  | .register .. | .define .. | .unregister _ | .clear | .freeze => false

theorem Request.turn_toBuilder {h : Host} {r : Request} {b b' : SchemaBuilder} {t t' : FunctionTable} (hr : r.toBuilder = true)
    (turned : r.turn h b t = .ok (b', t')) : t.KeptBy t' := by
  cases r with
  | field | check | compileShape =>
    obtain ⟨_, _, heq⟩ := Except.map_eq_ok.mp turned
    cases heq
    exact fun _ _ => id
  | describe | build =>
    cases turned
    exact fun _ _ => id
  | register | define | unregister | clear | freeze => cases hr

/-- A script for the builder alone is steady. -/
theorem Script.steady_of_toBuilder {builder table : Nat} : ∀ (script : Script) {s : Session} {b : SchemaBuilder}
    {t : FunctionTable}, (∀ c ∈ script, c.2.toBuilder = true) → s.Holds builder table b t → script.Steady builder table s
  | [], _, _, _, _, _ => trivial
  | (h, r) :: rest, s, b, t, own, holds => by
    have later := fun c (hc : c ∈ rest) => own c (List.mem_cons_of_mem _ hc)
    unfold Steady
    rcases Request.perform_cases holds h r with ⟨f, failed⟩ | ⟨v, s', b', t', made, turned, holds', -⟩
    · rw [failed]
      exact ⟨fun _ _ => id, steady_of_toBuilder rest later holds⟩
    · rw [made, holds.table_eq]
      dsimp only
      rw [holds'.table_eq]
      exact ⟨Request.turn_toBuilder (own _ List.mem_cons_self) turned, steady_of_toBuilder rest later holds'⟩

/-- In well-formed fields a name that equals itself finds its own field. -/
theorem Schema.WellFormed.getField? {hosts : List Host} {u : Schema} (wf : u.WellFormed hosts) {name : Value} {n : Node}
    (hm : (name, n) ∈ u.fields) (self : name.eq name = true) : u.getField? name = some ⟨name, n⟩ := by
  obtain ⟨before, after, hfields⟩ := List.append_of_mem hm
  have earlier : ∀ e ∈ before, e.1.eq name = false := by
    intro e he
    have pairs := wf.names
    rw [hfields] at pairs
    exact (List.pairwise_append.mp pairs).2.2 e he _ List.mem_cons_self
  unfold Schema.getField?
  rw [hfields, List.find?_append, List.find?_eq_none.mpr fun e he => by simp [earlier e he], Option.none_or,
    List.find?_cons]
  simp [self]

namespace SchemaBuilder
variable {hosts : List Host} {h : Host} {b b' : SchemaBuilder} {t t' : FunctionTable}

/-- What is kept while a builder is used: it is well formed, and its checks are bound to functions that the table
still has. -/
structure Kept (hosts : List Host) (own : Value) (b : SchemaBuilder) (t : FunctionTable) : Prop where
  target : b.targetType = own
  wellFormed : b.WellFormed hosts
  known : ∀ r ∈ b.checks, t.find? r.name = some r.function

variable {own : Value}

theorem Kept.field (kept : Kept hosts own b t) (hh : h ∈ hosts) {name : Value} {shape : ShapeSpelling}
    {rules : List RuleSpelling} {named : List (String × Value)} (hf : b.field h t name shape rules named = .ok b') :
    Kept hosts own b' t := by
  obtain ⟨target, ⟨names, nodes, checks, compatible⟩, known⟩ := kept
  obtain ⟨fresh, site, s, n, hn, rfl⟩ := field_cases hf
  refine ⟨target, ⟨List.pairwise_append.mpr ⟨names, List.pairwise_singleton .., fun e he e' he' => ?_⟩, fun e he => ?_,
    checks, compatible⟩, known⟩
  · cases List.mem_singleton.mp he'
    exact fresh e he
  · rcases List.mem_append.mp he with he | he
    · exact nodes e he
    · cases List.mem_singleton.mp he
      exact ⟨b.workshop h t, hh, rfl, Workshop.compile_levels site s hn⟩

theorem Kept.check (kept : Kept hosts own b t) (hh : h ∈ hosts) {rules : List RuleSpelling} {named : List (String × Value)}
    (hc : b.check h t rules named = .ok b') : Kept hosts own b' t := by
  obtain ⟨target, ⟨names, nodes, checks, compatible⟩, known⟩ := kept
  obtain ⟨declared, site, all, hall, rfl⟩ := check_cases hc
  obtain ⟨bound, rfl, fits, pairs⟩ := Workshop.bindRules_ok hall
  have allKnown : ∀ r ∈ b.checks ++ bound, t.find? r.name = some r.function := by
    intro r hr
    rcases List.mem_append.mp hr with hr | hr
    · exact known r hr
    · exact (fits r hr).found
  refine ⟨target, ⟨names, nodes, fun r hr => ?_, Workshop.compatible_of_pairs allKnown pairs⟩, allKnown⟩
  rcases List.mem_append.mp hr with hr | hr
  · exact checks r hr
  · exact ⟨b.workshop h t, hh, rfl, declared, fits r hr⟩

/-- A turn that keeps the functions of the table keeps the builder well formed. -/
theorem Kept.turn (kept : Kept hosts own b t) (hh : h ∈ hosts) {r : Request} (turned : r.turn h b t = .ok (b', t'))
    (same : t.KeptBy t') : Kept hosts own b' t' := by
  rcases Request.turn_cases turned with ⟨name, shape, rules, named, -, hf, rfl⟩ | ⟨rules, named, -, hc, rfl⟩ | ⟨-, d, rfl⟩
  · exact kept.field hh hf
  · exact kept.check hh hc
  · -- Later checks are compared with those of the builder, so the table must still have the functions of these.
    exact ⟨kept.target, kept.wellFormed, fun r hr => same _ _ (kept.known r hr)⟩

theorem Kept.run {builder table : Nat} : ∀ (script : Script) {s : Session} {b b' : SchemaBuilder} {t t' : FunctionTable},
    (∀ c ∈ script, c.1 ∈ hosts) → script.Steady builder table s → s.Holds builder table b t →
      (script.run builder table s).2.Holds builder table b' t' → Kept hosts own b t → Kept hosts own b' t'
  | [], s, b, b', t, t', _, _, holds, holds', kept => by
    obtain ⟨rfl, rfl⟩ := holds.unique holds'
    exact kept
  | (h, r) :: rest, s, b, b', t, t', among, steady, holds, holds', kept => by
    have later := fun c (hc : c ∈ rest) => among c (List.mem_cons_of_mem _ hc)
    rw [Script.run] at holds'
    obtain ⟨same, steady⟩ := steady
    rcases Request.perform_cases holds h r with ⟨f, failed⟩ | ⟨v, s₁, b₁, t₁, made, turned, holds₁, -⟩
    · rw [failed] at holds' steady
      exact Kept.run rest later steady holds holds' kept
    · rw [made] at holds' steady same
      rw [holds.table_eq, holds₁.table_eq] at same
      exact Kept.run rest later steady holds₁ holds' (kept.turn (among _ List.mem_cons_self) turned same)

/-- Whatever is asked of a new builder, while the functions of its table stay: the builder, the schemas that it builds and
the nodes that it compiles are well formed. -/
theorem stays_wellFormed {builder table : Nat} {s : Session} (holds : s.Holds builder table b t) (fields : b.fields = [])
    (checks : b.checks = []) (script : Script) (steady : script.Steady builder table s) :
    let after := (script.run builder table s).2
    ∃ b' t', after.Holds builder table b' t' ∧ b'.targetType = b.targetType ∧ b'.WellFormed (script.map Prod.fst) ∧
      (∀ h, ∃ (u : Schema) (after' : Session), (Request.build.perform h builder table).runWith after = (.ok u.toObject, after') ∧
        after'.schema? u.serial = some u ∧ u.fields = b'.fields ∧ u.WellFormed (script.map Prod.fst) ∧
        ∀ name n, (name, n) ∈ u.fields → name.eq name = true → u.getField? name = some ⟨name, n⟩) ∧
      ∀ h shape v after', ((Request.compileShape shape).perform h builder table).runWith after = (.ok v, after') →
        ∃ (n : Node) (serial : Nat), v = n.toObject.numbered serial ∧ n.WellFormed [h] b.targetType := by
  intro after
  obtain ⟨b', t', holds', -⟩ := Script.run_holds script holds
  have start : Kept (script.map Prod.fst) b.targetType b t := by
    refine ⟨rfl, ⟨?_, ?_, ?_, ?_⟩, ?_⟩ <;> simp [fields, checks]
  obtain ⟨target, wf, -⟩ := start.run script (fun c hc => List.mem_map_of_mem hc) steady holds holds'
  refine ⟨b', t', holds', target, wf, fun h => ?_, fun h shape v after' made => ?_⟩
  · have wfBuilt : (b'.build after.nextSerial).WellFormed (script.map Prod.fst) := wf
    obtain ⟨final, built, -, remembered, -⟩ := Request.build_ok holds' h
    exact ⟨b'.build after.nextSerial, final, built, remembered, rfl, wfBuilt, fun name n => wfBuilt.getField?⟩
  · rw [Request.perform, Action.runWith_compileShape holds'] at made
    split at made
    · cases made
    · next n hn =>
      cases made
      obtain ⟨site, s, hn⟩ := compileShape_cases hn
      exact ⟨n, _, rfl, b'.workshop h t', List.mem_singleton.mpr rfl, target, Workshop.compile_levels site s hn⟩

/-- A field of at least one number below ten is declared twice, and refused the second time. -/
theorem stays_wellFormed_of_twice :
    let s := ((Action.make (.builder { name := .text "order" } Session.sharedTable)).runWith .start).2
    let counts : Request := .field (.text "counts") (.shape (.wrapper .sequence (some (.scalar (.cls (.builtin .int) []) []))
      none [])) [] [("min_len", .int 1), ("max", .int 9)]
    let script : Script := [(.bare, counts), (.bare, .check [] [("predicate", .cls (.builtin .bool) [])]), (.bare, counts)]
    s.Holds 2 1 { name := .text "order" } .default ∧ script.Steady 2 1 s ∧
      (script.run 2 1 s).1.map Except.isOk = [true, true, false] ∧
      ∃ b t, (script.run 2 1 s).2.Holds 2 1 b t ∧ b.WellFormed (script.map Prod.fst) := by
  intro s counts script
  have holds : s.Holds 2 1 { name := .text "order" } .default := ⟨rfl, rfl⟩
  have steady : script.Steady 2 1 s := script.steady_of_toBuilder (by simp [script, counts, Request.toBuilder]) holds
  obtain ⟨b, t, after, -, wf, -⟩ := stays_wellFormed holds rfl rfl script steady
  exact ⟨holds, steady, by decide +kernel, b, t, after, wf⟩

end SchemaBuilder
end Conform
