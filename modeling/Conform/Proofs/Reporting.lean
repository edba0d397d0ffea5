import Conform.Proofs.Described

/-!
How loading plain data as a configuration can fail. The scan for references and the construction of shapes read the same
data, and each relies on checks that only the other one makes: the scan asks whatever stands for the cases of a choice
for its values and goes through whatever stands for the fields of a schema, and names of schemas are used as keys and
joined before anything says what they are. Compiling what the data describes refuses it, unless a parameter is a
relative import path or a pattern that cannot be read. So loading makes schemas or refuses what is malformed, or one
of these things slips through (`load_refused_or_slips`).
-/

namespace Conform

open Conform.Configuration (Settings LoadFault)

/-! ### Binding and declaring -/

theorem FunctionTable.callableParam_builtins {f : ConstraintFunction} (hf : f ∈ builtins) (callable : f.callableParam = true) :
    f.name = "predicate" ∧ f.checkParam = some .predicate ∧ f.group = none := by
  have each : ∀ f ∈ builtins, f.callableParam = true →
      f.name = "predicate" ∧ f.checkParam = some .predicate ∧ f.group = none := by simp [builtins]
  exact each f hf callable

theorem FunctionTable.pattern_builtins {f : ConstraintFunction} (hf : f ∈ builtins) (check : f.checkParam = some .pattern) :
    f.name = "pattern" ∧ f.callableParam = false := by
  have each : ∀ f ∈ builtins, f.checkParam = some .pattern → f.name = "pattern" ∧ f.callableParam = false := by
    simp [builtins]
  exact each f hf check

/-- Importing what a path names refuses the path, unless it is a relative one. -/
theorem importObject_fails {h : Host} {path : String} {P : Fault → Prop} (refused : ∀ f, f.IsSchemaError → P f)
    (relative : (String.ofList (splitImportPath path.toList).1).startsWith "." = true →
      P (.relativeImport (String.ofList (splitImportPath path.toList).1))) : FailsWith P (importObject h path) := by
  have imports (module : String) (hr : module.startsWith "." = true → P (.relativeImport module)) :
      FailsWith P (importModule h path module) := by
    unfold importModule
    split
    · next starts => exact .error (hr starts)
    · split
      · exact .error (refused _ ⟨_, rfl, rfl⟩)
      · split
        · exact .ok
        · exact .error (refused _ ⟨_, rfl, rfl⟩)
  unfold importObject
  dsimp only
  refine .ite _ (.error (refused _ ⟨_, rfl, rfl⟩)) ((imports _ relative).bind fun start _ => ?_)
  refine FailsWith.foldlM (I := fun _ => True) trivial fun v _ part _ => ⟨?_, fun _ _ => trivial⟩
  split
  · exact .ok
  · exact .error (refused _ ⟨_, rfl, rfl⟩)

/-- Finding what a plain parameter names fails as its import path does. -/
theorem resolveParam_fails {h : Host} {param : Value} (json : param.IsJson) :
    FailsWith (fun f => f.IsSchemaError ∨ Configuration.RelativePath param f) (resolveParam h true param) := by
  have imports (path : String) (hp : Configuration.importPath? param = some path) :
      FailsWith (fun f => f.IsSchemaError ∨ Configuration.RelativePath param f) (importObject h path) :=
    importObject_fails (fun _ => .inl) fun starts => .inr ⟨path, hp, starts, rfl⟩
  unfold resolveParam
  rw [if_neg (by simp)]
  split
  · next path hpath =>
    refine imports path ?_
    obtain rfl := json.asText_eq_some hpath
    rfl
  · split
    · next first second _ =>
      split
      · next path hfirst => exact (imports path hfirst).map
      · exact .ok
    · cases json
    · exact .ok

namespace Workshop
variable {w : Workshop} {site : Site} {source : Value}

/-- A bound rule whose function belongs to a group has a plain parameter. -/
def PlainBounds (r : BoundRule) : Prop := r.function.group.isSome = true → r.param.IsJson

theorem checkConflicts_plain {rules : List BoundRule} (plain : ∀ r ∈ rules, PlainBounds r) :
    FailsWith (LoadFault source) (BoundRule.checkConflicts site [] rules) := by
  refine BoundRule.checkConflicts_fails (Q := PlainBounds) (fun a b ha hb => ?_) (by simpa using plain)
  refine BoundRule.checkPair_fails (fun _ => .inl) fun lower upper pair undefined => ?_
  have grouped : a.function.group.isSome = true ∧ b.function.group.isSome = true := by
    unfold BoundRule.boundPair at pair
    split at pair
    · next same =>
      rw [Bool.and_eq_true, beq_iff_eq] at same
      exact ⟨same.1, same.2 ▸ same.1⟩
    · cases pair
  rcases BoundRule.boundPair_some pair with ⟨rfl, rfl⟩ | ⟨rfl, rfl⟩
  · exact ((hb grouped.2).lt_ne_undefined (ha grouped.1) undefined).elim
  · exact ((ha grouped.1).lt_ne_undefined (hb grouped.2) undefined).elim

section Resolving
variable (resolver : w.resolver = some .importPaths)
include resolver

theorem resolve_importPaths {f : ConstraintFunction} {param : Value} :
    w.resolve f param = resolveParam w.host f.callableParam param := by
  rw [resolve, resolver]

/-- A parameter is what was declared, unless it names a function. -/
theorem resolve_data {f : ConstraintFunction} {param resolved : Value} (data : f.callableParam = false)
    (hr : w.resolve f param = .ok resolved) : resolved = param := by
  rw [resolve_importPaths resolver, data] at hr
  cases hr
  rfl

variable (engine : w.table.functions = FunctionTable.builtins)
include engine

theorem bindRule_plainBounds {shape : Shape} {rule : Rule} {r : BoundRule} (plain : rule.param.IsJson)
    (h : w.bindRule shape site rule = .ok r) : PlainBounds r := by
  obtain ⟨hf, -, resolved, -⟩ := bindRule_cases h
  intro grouped
  cases callable : r.function.callableParam with
  | false => exact resolve_data resolver callable resolved ▸ plain
  | true =>
    obtain ⟨-, -, alone⟩ := FunctionTable.callableParam_builtins (engine ▸ mem_of_lookUp hf) callable
    rw [alone] at grouped
    cases grouped

variable (json : source.IsJson)
include json

/-- A rule that some data declares is bound or refused, unless its parameter is a relative import path or a pattern that
cannot be read. -/
theorem bindRule_loads {shape : Shape} {rule : Rule} (named : shape.declaredType.IsNamedType)
    (held : rule.param = .absent ∨ source.HasEntry rule.name rule.param) :
    FailsWith (LoadFault source) (w.bindRule shape site rule) := by
  have plain : rule.param.IsJson := Value.isJson_of_given json held
  -- One function of the engine has its parameter resolved, and another one looks into it in a way that can crash.
  refine bindRule_fails_of (fun _ => .inl) (fun f hf name => ?_) fun f hf name param resolved check hcheck => ?_
  · rw [resolve_importPaths resolver]
    cases callable : f.callableParam with
    | false => exact .ok
    | true =>
      refine (resolveParam_fails plain).imp fun g hg => hg.imp_right fun relative => ?_
      obtain ⟨predicate, -⟩ := FunctionTable.callableParam_builtins (engine ▸ hf) callable
      rw [← name, predicate] at held
      refine .relative (held.resolve_left fun absent => ?_) relative
      obtain ⟨path, hpath, -⟩ := relative
      rw [absent] at hpath
      cases hpath
  · have builtin := FunctionTable.checkParam_builtins (engine ▸ hf)
    have kind : param.IsJson ∨ check = .predicate := by
      cases callable : f.callableParam with
      | false => exact .inl (resolve_data resolver callable resolved ▸ plain)
      | true =>
        obtain ⟨-, predicate, -⟩ := FunctionTable.callableParam_builtins (engine ▸ hf) callable
        exact .inr (Option.some.inj (hcheck.symm.trans predicate))
    refine (ParameterCheck.run_plain (fun g hg => builtin g (hg ▸ hcheck)) named kind).imp fun g failed => .inr ?_
    obtain ⟨rfl, crash⟩ := failed
    obtain ⟨pattern, data⟩ := FunctionTable.pattern_builtins (engine ▸ hf) hcheck
    rw [resolve_data resolver data resolved] at crash
    rw [← name, pattern] at held
    refine .pattern (held.resolve_left fun absent => ?_) crash
    obtain ⟨text, e, htext, -⟩ := crash
    rw [absent] at htext
    cases htext

theorem bindRules_loads {shape : Shape} {existing : List BoundRule} (named : shape.declaredType.IsNamedType)
    (held : HeldRules source shape.rules) (plain : ∀ r ∈ existing, PlainBounds r) :
    FailsWith (LoadFault source) (w.bindRules shape site existing) := by
  unfold bindRules
  refine (FailsWith.mapM fun rule hr => bindRule_loads resolver engine json named (held rule hr)).bind fun bound hbound => ?_
  refine (checkConflicts_plain fun r hr => ?_).bind fun _ _ => .ok
  rcases List.mem_append.mp hr with hr | hr
  · exact plain r hr
  · obtain ⟨rule, hrule, hr⟩ := mem_mapM hbound hr
    exact bindRule_plainBounds resolver engine (Value.isJson_of_given json (held rule hrule)) hr

theorem compile_loads {s : Shape} (hs : s.AllConfigured source) : FailsWith (LoadFault source) (w.compile site s) := by
  refine compile_fails_of (fun _ => .inl) site s fun l hl site => ?_
  have named : l.declaredType.IsNamedType :=
    Shape.AllConfigured.declaredType fun l' hl' => hs l' (Shape.levels_subset hl hl')
  exact bindRules_loads resolver engine json named (hs l hl).rules (List.forall_mem_nil _)

end Resolving

end Workshop

namespace SchemaBuilder
variable {b : SchemaBuilder} {h : Host} {t : FunctionTable} {source : Value} (json : source.IsJson)
  (resolver : b.resolver = some .importPaths) (engine : t.functions = FunctionTable.builtins)
include json resolver engine

theorem field_loads {name : Value} {s : Shape} {rules : List Rule} (hs : s.AllConfigured source) (held : HeldRules source rules) :
    FailsWith (LoadFault source) (b.field h t name (.shape s) (rules.map .rule) []) := by
  rw [field_eq]
  refine .ite _ (.error (.inl ⟨_, rfl, rfl⟩)) ((malformed_fails.imp fun _ => .inl).bind fun s' hs' =>
    (malformed_fails.imp fun _ => .inl).bind fun declared hdeclared => FailsWith.map ?_)
  cases malformed_eq_ok hs'
  cases (Rule.ofSpellings_rules rules).symm.trans (malformed_eq_ok hdeclared)
  refine fieldNode_fails_of (I := Shape.AllConfigured source) (fun _ => .inl) hs (fun s hs => hs.describe_ok)
    (fun s hs rule hr s' hs' => ?_) fun s hs => ?_
  · obtain ⟨kinds, hplace⟩ := places_of_placeRule hs'
    exact hs.place (held rule hr) hplace
  · exact Workshop.compile_loads (w := b.workshop h t) resolver engine json hs

theorem check_loads {rules : List Rule} (held : HeldRules source rules) (first : b.checks = []) :
    FailsWith (LoadFault source) (b.check h t (rules.map .rule) []) := by
  unfold check
  refine (malformed_fails.imp fun _ => .inl).bind fun declared hdeclared => ?_
  cases (Rule.ofSpellings_rules rules).symm.trans (malformed_eq_ok hdeclared)
  rw [first]
  have bound : FailsWith (LoadFault source)
      ((b.workshop h t).bindRules (.nested (.value b.targetType) rules) { schema := b.name } []) :=
    Workshop.bindRules_loads resolver engine json (.inl rfl) held (List.forall_mem_nil _)
  exact bound.bind fun _ _ => .ok

end SchemaBuilder

namespace Factory

open Conform.Configuration

section Declare
variable {h : Host} {t : FunctionTable} {known : KnownSchemas} {b b' : SchemaBuilder} {source : Value}

theorem fieldShape_yields {context : Context} {entries : List (Value × Value)} (json : source.IsJson)
    (settings : Settings source entries) :
    Yields (LoadFault source) (fieldShape known context entries) (Shape.AllConfigured source) := by
  have optional {base : Shape} (hb : base.AllConfigured source) :
      Yields (LoadFault source) (if ((setting entries "optional").truthy && !isOptional base) = true then
        pure (.wrapper .optional (some base) none []) else pure base) (Shape.AllConfigured source) := by
    split
    · exact .ok (Shape.allConfigured_wrapper hb (by simp) .nil)
    · exact .ok hb
  unfold fieldShape
  dsimp only
  split
  · next config hconfig =>
    exact (shape_yields json _ _ (.inr (settings.lookup hconfig).part)).bind fun base hb => optional hb
  · have scalar : Yields (LoadFault source) ((scalarType context (setting entries "type")).map fun type => .scalar type [])
        (Shape.AllConfigured source) :=
      scalarType_yields.map fun type named => Shape.allConfigured_scalar named .nil
    exact scalar.bind fun base hb => optional hb

theorem addField_keeps {config : Value} (hf : addField h t known b config = .ok b') :
    b'.resolver = b.resolver ∧ b'.checks = b.checks := by
  unfold addField at hf
  dsimp only at hf
  split at hf
  · split at hf
    · obtain ⟨shape, -, hf⟩ := Except.bind_eq_ok.mp hf
      obtain ⟨rules, -, hf⟩ := Except.bind_eq_ok.mp hf
      obtain ⟨-, site, s, n, -, rfl⟩ := SchemaBuilder.field_cases hf
      exact ⟨rfl, rfl⟩
    · cases hf
  · cases hf

variable (json : source.IsJson) (engine : t.functions = FunctionTable.builtins)
include json engine

theorem addField_loads {config : Value} (resolver : b.resolver = some .importPaths) (part : source.Part config) :
    FailsWith (LoadFault source) (addField h t known b config) := by
  unfold addField
  dsimp only
  split
  · next kind entries =>
    have settings := Settings.of_part json part
    split
    · next name hname =>
      have shape : Yields (LoadFault source) (fieldShape known [("schema", b.name), ("field", name)] entries)
          (Shape.AllConfigured source) := fieldShape_yields json settings
      refine shape.fails.bind fun s hs => ?_
      have declared : Yields (LoadFault source)
          (declaredRules [("schema", b.name), ("field", name)] (setting entries "rules")) (HeldRules source) :=
        declaredRules_yields json (settings.part "rules")
      refine declared.fails.bind fun rules hrules => ?_
      exact SchemaBuilder.field_loads json resolver engine (shape.gives s hs) (declared.gives rules hrules)
    · exact .error .refuse
  · exact .error .refuse

/-- Declaring what plain data configures fails in no other ways than loading it. -/
theorem declare_loads {name : Value} {config : List (Value × Value)} (settings : Settings source config) :
    FailsWith (LoadFault source) (declare h t known name config) := by
  have start : (builder name (setting config "description")).resolver = some .importPaths ∧
      (builder name (setting config "description")).checks = [] := ⟨rfl, rfl⟩
  have kept (b : SchemaBuilder) (hb : b.resolver = some .importPaths ∧ b.checks = []) (field : Value) (b' : SchemaBuilder)
      (hf : addField h t known b field = .ok b') : b'.resolver = some .importPaths ∧ b'.checks = [] := by
    obtain ⟨resolver, checks⟩ := addField_keeps hf
    exact ⟨resolver.trans hb.1, checks.trans hb.2⟩
  have declared (fields : List Value) (parts : ∀ field ∈ fields, source.Part field) :
      FailsWith (LoadFault source) (do
        let b ← fields.foldlM (addField h t known) (builder name (setting config "description"))
        if (!(setting config "checks").truthy) = true then pure b else
          let rules ← declaredRules [("schema", name)] (setting config "checks")
          b.check h t (rules.map .rule) []) := by
    have step (b : SchemaBuilder) (hb : b.resolver = some .importPaths ∧ b.checks = []) (field : Value) (hfield : field ∈ fields) :
        FailsWith (LoadFault source) (addField h t known b field) ∧
          ∀ b', addField h t known b field = .ok b' → b'.resolver = some .importPaths ∧ b'.checks = [] :=
      ⟨addField_loads json engine hb.1 (parts field hfield), kept b hb field⟩
    refine (FailsWith.foldlM (I := fun b => b.resolver = some .importPaths ∧ b.checks = []) start step).bind fun b hb => .ite _ .ok ?_
    obtain ⟨resolver, first⟩ := foldlM_invariant (fun b hb field _ => kept b hb field) start hb
    have rules : Yields (LoadFault source) (declaredRules [("schema", name)] (setting config "checks")) (HeldRules source) :=
      declaredRules_yields json (settings.part "checks")
    exact rules.fails.bind fun checks hchecks => SchemaBuilder.check_loads json resolver engine (rules.gives checks hchecks) first
  unfold declare
  dsimp only
  split
  · exact declared [] nofun
  · next items hitems => exact declared items fun field hfield => (settings.lookup hitems).part.item hfield
  · exact .bind (.error .refuse) nofun

end Declare
end Factory

/-! ### Scanning for references -/

namespace Configuration
variable {source : Value}

/-- What a schema is asked for by: a text, or what is given for the name of a schema. -/
def Named (source v : Value) : Prop := (∃ s, v = .text s) ∨ NamesSchema source v

theorem Named.namesSchema {v : Value} (named : Named source v) (ht : v.asText? = none) : NamesSchema source v := by
  refine named.resolve_left fun text => ?_
  obtain ⟨s, rfl⟩ := text
  cases ht

theorem Named.requireKey_fails {v : Value} (named : Named source v) : FailsWith (LoadFault source) v.requireKey := by
  refine Configuration.requireKey_fails fun unhashable => named.resolve_left fun text => ?_
  obtain ⟨s, rfl⟩ := text
  exact unhashable rfl

theorem nestedReference_named {entries : List (Value × Value)} (settings : Settings source entries) :
    ∀ r ∈ nestedReference entries, Named source r := by
  intro r hr
  unfold nestedReference at hr
  dsimp only at hr
  split at hr
  · next given =>
    rw [List.mem_singleton.mp hr]
    refine .inr (.inr ((settings.setting "schema").resolve_left fun absent => ?_))
    simp [absent, Value.isAbsent] at given
  · cases hr

/-- What is no mapping asks for nothing but the schema that it names. -/
theorem leafReferences_yields {inVariant : Bool} {config : Value} (leaf : config.isMapping = false)
    (named : ∀ s, config.asText? = some s → config = .text s) :
    Yields (LoadFault source) (shapeReferences inVariant config) fun refs => ∀ r ∈ refs, Named source r := by
  rw [shapeReferences.eq_def]
  split
  · cases leaf
  · split
    · next name ht =>
      refine .ok fun r hr => ?_
      split at hr
      · exact List.mem_singleton.mp hr ▸ .inl ⟨name, named name ht⟩
      · cases hr
    · exact .ok (List.forall_mem_nil _)

mutual

/-- Scanning fails where what stands for the cases of a choice is no mapping, and finds what is asked for. -/
theorem shapeReferences_yields (json : source.IsJson) (inVariant : Bool) (config : Value) :
    config = .absent ∨ source.Part config →
      Yields (LoadFault source) (shapeReferences inVariant config) fun refs => ∀ r ∈ refs, Named source r := by
  intro part
  have named (s : String) (hs : config.asText? = some s) : config = .text s := by
    rcases part with rfl | part
    · cases hs
    · exact (part.isJson json).asText_eq_some hs
  cases config with
  | mapping kind entries =>
    rw [shapeReferences]
    have settings := Settings.of_part json (part.resolve_left (by simp))
    have below (key : String) : (setting entries key).depth ≤ Value.depthEntries entries := depth_setting_le entries key
    have scanned (key : String) (_ : (setting entries key).depth ≤ Value.depthEntries entries) :
        Yields (LoadFault source) (shapeReferences false (setting entries key)) fun refs => ∀ r ∈ refs, Named source r :=
      shapeReferences_yields json false (setting entries key) (settings.part key)
    dsimp only
    refine (scanned "items" (below _)).bind fun items hitems => (scanned "inner" (below _)).bind fun inner hinner =>
      (scanned "values" (below _)).bind fun values hvalues => (scanned "keys" (below _)).bind fun keys hkeys => ?_
    have all {cases : List Value} (hcases : ∀ r ∈ cases, Named source r) :
        ∀ r ∈ nestedReference entries ++ items ++ inner ++ values ++ keys ++ cases, Named source r := by
      simp only [List.mem_append]
      rintro r (((((hr | hr) | hr) | hr) | hr) | hr)
      · exact nestedReference_named settings r hr
      · exact hitems r hr
      · exact hinner r hr
      · exact hvalues r hr
      · exact hkeys r hr
      · exact hcases r hr
    split
    · next kind' cases hv =>
      have there : source.Part (.mapping kind' cases) := by
        refine hv ▸ ((settings.setting "variants").resolve_left fun absent => ?_).part
        rw [absent] at hv
        cases hv
      have smaller : Value.depthEntries cases < Value.depthEntries entries := by
        have := below "variants"
        rw [hv, Value.depth] at this
        omega
      exact (caseReferences_yields json cases fun name payload hm => there.entry hm).bind fun found hfound => .ok (all hfound)
    · next none =>
      split
      · next truthy =>
        refine .error (.inr (.variants ((settings.setting "variants").resolve_left fun absent => ?_) truthy ?_))
        · rw [absent] at truthy
          cases truthy
        · cases hv : setting entries "variants" with
          | mapping kind cases => exact (none kind cases hv).elim
          | _ => rfl
      · exact .ok (all (List.forall_mem_nil _))
  | _ => exact leafReferences_yields rfl named
termination_by (config.depth, 0)
decreasing_by
  all_goals
    subst_vars
    simp only [Prod.lex_def, Value.depth]
    omega

theorem caseReferences_yields (json : source.IsJson) : ∀ (cases : List (Value × Value)),
    (∀ name payload, (name, payload) ∈ cases → source.Part payload) →
      Yields (LoadFault source) (caseReferences cases) fun refs => ∀ r ∈ refs, Named source r
  | [], _ => by
    rw [caseReferences]
    exact .ok (List.forall_mem_nil _)
  | (name, payload) :: rest, parts => by
    rw [caseReferences]
    have here := shapeReferences_yields json true payload (.inr (parts name payload List.mem_cons_self))
    have others := caseReferences_yields json rest fun n p hm => parts n p (List.mem_cons_of_mem _ hm)
    refine here.bind fun found hfound => others.bind fun more hmore => .ok fun r hr => ?_
    exact (List.mem_append.mp hr).elim (hfound r) (hmore r)
termination_by cases => (Value.depthEntries cases, cases.length + 1)
decreasing_by
  all_goals
    simp only [Prod.lex_def, Value.depthEntries, List.length_cons]
    omega

end

theorem fieldReferences_yields (json : source.IsJson) : ∀ {items : List Value},
    (∀ kind entries, .mapping kind entries ∈ items → source.Part (.mapping kind entries)) →
      Yields (LoadFault source) (fieldReferences items) fun refs => ∀ r ∈ refs, Named source r
  | [], _ => .ok (List.forall_mem_nil _)
  | v :: rest, parts => by
    have others := fieldReferences_yields json fun kind entries hm => parts kind entries (List.mem_cons_of_mem _ hm)
    rw [fieldReferences.eq_def]
    split
    · next heq => cases heq
    · next kind entries rest' heq =>
      cases heq
      have settings := Settings.of_part json (parts _ _ List.mem_cons_self)
      have here := shapeReferences_yields json false _ (settings.part "shape")
      refine here.bind fun found hfound => others.bind fun more hmore => .ok fun r hr => ?_
      exact (List.mem_append.mp hr).elim (hfound r) (hmore r)
    · next heq =>
      cases heq
      exact others

theorem references_yields {config : List (Value × Value)} (json : source.IsJson) (settings : Settings source config) :
    Yields (LoadFault source) (references config) fun refs => ∀ r ∈ refs, Named source r := by
  unfold references
  dsimp only
  split
  · exact .ok nofun
  · next truthy =>
    have has := (settings.setting "fields").resolve_left fun absent => truthy (by rw [absent]; rfl)
    split
    · next items hitems =>
      refine fieldReferences_yields json fun kind entries hm => ?_
      have list := (has.isJson json).list_of_mapping_mem hitems hm
      exact (list ▸ has.part).item hm
    · next none => exact .error (.inr (.fields has (by simpa using truthy) none))

end Configuration

/-! ### Creating schemas -/

namespace Factory

open Conform.Configuration

variable {h : Host} {source : Value} {f : Factory}

theorem create_loads {config : List (Value × Value)} (json : source.IsJson) (settings : Settings source config)
    (engine : f.table.functions = FunctionTable.builtins) :
    Ends (LoadFault source) (create h config) f fun _ f' => f'.table.functions = FunctionTable.builtins := by
  have named : Named source ((Value.lookup? (.text "name") config).getD (.text "unnamed_schema")) := by
    cases hname : Value.lookup? (.text "name") config with
    | none => exact .inl ⟨_, rfl⟩
    | some name => exact .inr (.inl (settings.lookup hname))
  unfold Ends
  rw [create_run]
  dsimp only
  -- What is declared is stored under its name, so the name has to be a key even then.
  cases declared : declare h f.table f.schemas ((Value.lookup? (.text "name") config).getD (.text "unnamed_schema")) config with
  | error e => exact declare_loads json engine settings e declared
  | ok b =>
    cases key : ((Value.lookup? (.text "name") config).getD (.text "unnamed_schema")).requireKey with
    | error e => exact named.requireKey_fails e key
    | ok _ => exact engine

theorem requireArguments_fails {config : List (Value × Value)} (settings : Settings source config) :
    FailsWith (LoadFault source) (requireArguments config) := by
  unfold requireArguments
  split
  · next other =>
    obtain ⟨k, v, hm, ht⟩ : ∃ k v, (k, v) ∈ config ∧ k.asText? = none := by simpa using other
    obtain ⟨s, rfl, -⟩ := settings k v hm
    cases ht
  · split
    · next given =>
      obtain ⟨v, hv⟩ := Option.isSome_iff_exists.mp given
      exact .error (.inr (.factory (settings.lookup hv)))
    · exact .ok

theorem mem_namesFrom {name v : Value} : ∀ {names : List Value}, v ∈ namesFrom name names → v ∈ names
  | n :: rest, hv => by
    rw [namesFrom] at hv
    split at hv
    · exact hv
    · exact List.mem_cons_of_mem _ (mem_namesFrom hv)

/-- References that lead back to a name are refused when all names on the way are texts. -/
theorem cycleFault_loads {name : Value} {visiting : List Value} (named : Named source name)
    (waiting : ∀ v ∈ visiting, Named source v) : LoadFault source (cycleFault name visiting) := by
  have all : ∀ v ∈ namesFrom name visiting ++ [name], Named source v := by
    intro v hv
    rcases List.mem_append.mp hv with hv | hv
    · exact waiting v (mem_namesFrom hv)
    · exact List.mem_singleton.mp hv ▸ named
  unfold cycleFault
  dsimp only
  -- The refusal shows the names on the way, and those that are no texts cannot be joined.
  split
  · next g hg =>
    refine FailsWith.mapM (P := LoadFault source) (fun e he => ?_) g hg
    split
    · exact .ok
    · next ht =>
      have one := all e.1 (List.fst_mem_of_mem_zipIdx he)
      exact .error (.inr (.cycle e.2 (one.namesSchema ht) ht))
  · exact .refuse

mutual

/-- Asked for the schema of a name, a run refuses what is malformed, or something slips through. -/
theorem build_loads (json : source.IsJson) (names visiting : List Value) (pending : List Definition)
    (created : List (Value × Schema)) (name : Value) (f : Factory) :
    f.table.functions = FunctionTable.builtins → Named source name → (∀ v ∈ visiting, Named source v) →
      (∀ d ∈ pending, Settings source d.2) →
        Ends (LoadFault source) (build h names visiting pending created name) f fun _ f' =>
          f'.table.functions = FunctionTable.builtins := by
  intro engine named waiting settings
  rw [build]
  split
  · exact .pure engine
  split
  · exact .throw (cycleFault_loads named waiting)
  split
  · exact .pure engine
  · next config rest hrest taken =>
    -- The definition is taken out of those pending, which is why the search ends; the table keeps its functions.
    obtain ⟨n, hm, -, -, back⟩ := takeDefinition_some taken
    have own : Settings source config := settings _ hm
    have scanned := references_yields json own
    refine .bind (Q := fun refs f' => (∀ r ∈ refs, Named source r) ∧ f' = f)
      (.liftExcept (fun refs hrefs => ⟨scanned.gives refs hrefs, rfl⟩) scanned.fails) ?_
    rintro refs _ ⟨hrefs, rfl⟩
    refine .bind (buildReferences_loads json names (visiting ++ [name]) rest created name refs _ engine ?_ hrefs
      fun d hd => settings d (back d hd)) ?_
    · intro v hv
      rcases List.mem_append.mp hv with hv | hv
      · exact waiting v hv
      · exact List.mem_singleton.mp hv ▸ named
    intro created' f' engine'
    refine .bind (Q := fun _ f'' => f'' = f') (.liftExcept (fun _ _ => rfl) (requireArguments_fails own)) ?_
    rintro _ _ rfl
    exact .bind (create_loads json own engine') fun s f'' engine'' => .pure engine''
termination_by (pending.length, 0)
decreasing_by
  simp only [Prod.lex_def]
  omega

theorem buildReferences_loads (json : source.IsJson) (names visiting : List Value) (pending : List Definition)
    (created : List (Value × Schema)) (name : Value) (refs : List Value) (f : Factory) :
    f.table.functions = FunctionTable.builtins → (∀ v ∈ visiting, Named source v) → (∀ r ∈ refs, Named source r) →
      (∀ d ∈ pending, Settings source d.2) →
        Ends (LoadFault source) (buildReferences h names visiting pending created name refs) f fun _ f' =>
          f'.table.functions = FunctionTable.builtins := by
  intro engine waiting named settings
  cases refs with
  | nil =>
    rw [buildReferences]
    exact .pure engine
  | cons r rest =>
    have others (x : Value) (hx : x ∈ rest) : Named source x := named x (List.mem_cons_of_mem _ hx)
    rw [buildReferences]
    refine .bind (Q := fun _ f' => f' = f) (.liftExcept (fun _ _ => rfl) (named r List.mem_cons_self).requireKey_fails) ?_
    rintro _ _ rfl
    split
    · refine .bind (build_loads json names visiting pending created r _ engine (named r List.mem_cons_self) waiting settings) ?_
      intro created' f' engine'
      exact buildReferences_loads json names visiting pending created' name rest f' engine' waiting others settings
    · refine .bind (Q := fun _ f' => f'.table.functions = FunctionTable.builtins) (.get engine) ?_
      intro known f' engine'
      split
      · exact buildReferences_loads json names visiting pending created name rest f' engine' waiting others settings
      · exact .throw .refuse
termination_by (pending.length, refs.length + 1)

end

end Factory
end Conform
