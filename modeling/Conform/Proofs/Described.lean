import Conform.Proofs.Levels
import Conform.Proofs.PlainData

/-!
What plain data describes when it is loaded as a configuration. The faults that slip through are told by the entries of its
mappings (`Slip`); everything else that is malformed is refused. Reading a shape refuses it or gives one that the data
describes (`shape_yields`): its types are classes that every program has, its cases are named by texts, and the parameters of its
rules stand in the data.
-/

namespace Conform

namespace Configuration

/-- The import path in a parameter, alone or before a message. -/
def importPath? : Value → Option String
  | .list [first, _] => first.asText?
  | v => v.asText?

/-- The failure to import from a relative path. -/
def RelativePath (param : Value) (f : Fault) : Prop :=
  ∃ path, importPath? param = some path ∧ (String.ofList (splitImportPath path.toList).1).startsWith "." = true ∧
    f = .relativeImport (String.ofList (splitImportPath path.toList).1)

/-- A value is given for the name of a schema, as its own or by what is nested. -/
def NamesSchema (source v : Value) : Prop := source.HasEntry "name" v ∨ source.HasEntry "schema" v

/-- What slips through when a configuration is loaded, by the entries of its mappings. -/
inductive Slip (source : Value) : Fault → Prop where
  | unhashableName {v c} (hv : NamesSchema source v) (hc : v.unhashable? = some c) : Slip source (.unhashable c)
  | cycle {v} (position : Nat) (hv : NamesSchema source v) (ht : v.asText? = none) : Slip source (.joinItem position v.fullName)
  | variants {v} (hv : source.HasEntry "variants" v) (truthy : v.truthy = true) (hm : v.isMapping = false) :
    Slip source (.lacking v "values")
  | fields {v} (hv : source.HasEntry "fields" v) (truthy : v.truthy = true) (hi : v.iterate? = none) :
    Slip source (.notIterable v.fullName)
  | factory {v} (hv : source.HasEntry "self" v) : Slip source (.repeatedArgument "SchemaFactory.create" "self")
  | relative {v f} (hv : source.HasEntry "predicate" v) (hf : RelativePath v f) : Slip source f
  | pattern {v f} (hv : source.HasEntry "pattern" v) (hf : PatternCrash v f) : Slip source f

/-- The faults of loading a configuration. -/
def LoadFault (source : Value) (f : Fault) : Prop := f.IsSchemaError ∨ Slip source f

theorem LoadFault.refuse {source : Value} {cause : ConfigurationCause} {context : Context} :
    LoadFault source (refuse cause context) := .inl ⟨_, rfl, rfl⟩

end Configuration

open Conform.Configuration (Settings LoadFault)

/-- A computation gives something of a kind, or fails in some way. -/
structure Yields {α : Type} (P : Fault → Prop) (e : Except Fault α) (Q : α → Prop) : Prop where
  fails : FailsWith P e
  gives : ∀ a, e = .ok a → Q a

namespace Yields
variable {α β : Type} {P : Fault → Prop} {e : Except Fault α} {Q : α → Prop} {R : β → Prop}

theorem ok {a : α} (ha : Q a) : Yields P (.ok a) Q := ⟨.ok, by rintro _ ⟨⟩; exact ha⟩

theorem error {f : Fault} (hf : P f) : Yields P (.error f : Except Fault α) Q := ⟨.error hf, nofun⟩

theorem bind {g : α → Except Fault β} (he : Yields P e Q) (hg : ∀ a, Q a → Yields P (g a) R) : Yields P (e >>= g) R := by
  rcases e with f | a
  · exact .error (he.fails f rfl)
  · exact hg a (he.gives a rfl)

theorem map {g : α → β} (he : Yields P e Q) (hg : ∀ a, Q a → R (g a)) : Yields P (e.map g) R := by
  rcases e with f | a
  · exact .error (he.fails f rfl)
  · exact .ok (hg a (he.gives a rfl))

end Yields

/-! ### Shapes of configurations -/

/-- A parameter of each rule stands under the rule's name in some data, or is absent. -/
def HeldRules (source : Value) (rules : List Rule) : Prop :=
  ∀ r ∈ rules, r.param = .absent ∨ source.HasEntry r.name r.param

theorem HeldRules.nil {source : Value} : HeldRules source [] := by simp [HeldRules]

namespace Shape

/-- A level of a shape that some data describes. -/
structure Configured (source : Value) (l : Shape) : Prop where
  type : l.type.IsNamedType
  names : ∀ name ∈ (l.cases.getD []).map Prod.fst, ∃ s, name = .text s
  rules : HeldRules source l.rules

/-- Every level of a shape is one that some data describes. -/
def AllConfigured (source : Value) (s : Shape) : Prop := ∀ l ∈ s.levels, l.Configured source

variable {source : Value} {rules : List Rule}

theorem allConfigured_scalar {type : Value} (ht : type.IsNamedType) (hr : HeldRules source rules) :
    (scalar type rules).AllConfigured source := by
  intro l hl
  obtain rfl : l = scalar type rules := by simpa [scalar, levels, innerLevels, choiceLevels] using hl
  exact ⟨ht, List.forall_mem_nil _, hr⟩

theorem allConfigured_nested {target : Target} (hr : HeldRules source rules) : (nested target rules).AllConfigured source := by
  intro l hl
  obtain rfl : l = nested target rules := by simpa [nested, levels, innerLevels, choiceLevels] using hl
  exact ⟨.inl rfl, List.forall_mem_nil _, hr⟩

theorem allConfigured_wrapper {w : Wrapper} {s : Shape} {keys : Option Shape} (hs : s.AllConfigured source)
    (hk : ∀ k, keys = some k → k.AllConfigured source) (hr : HeldRules source rules) :
    (wrapper w (some s) keys rules).AllConfigured source := by
  intro l hl
  rcases mem_levels.mp hl with rfl | hl | hl | hl
  · exact ⟨.inl rfl, List.forall_mem_nil _, hr⟩
  · rw [innerLevels] at hl
    exact hs l hl
  · cases keys with
    | none => simp [innerLevels] at hl
    | some k =>
      rw [innerLevels] at hl
      exact hk k rfl l hl
  · simp [choiceLevels] at hl

/-- Cases named by texts, of shapes that some data describes. -/
def ConfiguredCases (source : Value) (cases : List (Value × Payload)) : Prop :=
  ∀ name payload, (name, payload) ∈ cases → (∃ s, name = .text s) ∧ ∀ l ∈ payload.levels, l.Configured source

theorem mem_caseLevels {l : Shape} : ∀ {cases : List (Value × Payload)}, l ∈ caseLevels cases →
    ∃ name payload, (name, payload) ∈ cases ∧ l ∈ payload.levels
  | (name, payload) :: rest, hl => by
    rw [caseLevels] at hl
    rcases List.mem_append.mp hl with hl | hl
    · exact ⟨name, payload, List.mem_cons_self, hl⟩
    · obtain ⟨name', payload', hm, hl⟩ := mem_caseLevels hl
      exact ⟨name', payload', List.mem_cons_of_mem _ hm, hl⟩

theorem allConfigured_variants {cases : List (Value × Payload)} {tag : Value} (hc : ConfiguredCases source cases)
    (hr : HeldRules source rules) : (variants cases tag rules).AllConfigured source := by
  intro l hl
  rcases mem_levels.mp hl with rfl | hl | hl | hl
  · refine ⟨.inl rfl, fun name hname => ?_, hr⟩
    obtain ⟨e, he, rfl⟩ := List.mem_map.mp hname
    exact (hc e.1 e.2 he).1
  · simp [innerLevels] at hl
  · simp [innerLevels] at hl
  · rw [choiceLevels] at hl
    obtain ⟨name, payload, hm, hl⟩ := mem_caseLevels hl
    exact (hc name payload hm).2 l hl

theorem ConfiguredCases.assign {cases : List (Value × Payload)} {name : String} {payload : Payload}
    (hc : ConfiguredCases source cases) (hp : ∀ l ∈ payload.levels, l.Configured source) :
    ConfiguredCases source (Value.assign (.text name) payload cases) := by
  intro k p hm
  rcases Value.mem_assign hm with hm | ⟨rfl, rfl | ⟨-, q, hm⟩⟩
  · exact hc k p hm
  · exact ⟨⟨name, rfl⟩, hp⟩
  · exact ⟨(hc k q hm).1, hp⟩

/-- Placing a rule whose parameter stands in the data keeps every level as the data describes it. -/
theorem AllConfigured.place {s placed : Shape} {kinds : List FieldKind} {rule : Rule} (hs : s.AllConfigured source)
    (hr : rule.param = .absent ∨ source.HasEntry rule.name rule.param) (hp : Places kinds rule s placed) :
    placed.AllConfigured source := by
  intro l' hl'
  rcases hp.levels l' hl' with ⟨l, hl, -, type, cases, rules⟩ | rfl
  · obtain ⟨ht, hn, held⟩ := hs l hl
    refine ⟨type ▸ ht, cases ▸ hn, fun r hr' => ?_⟩
    rcases rules r hr' with hr' | rfl
    · exact held r hr'
    · exact hr
  · exact ⟨.inl rfl, List.forall_mem_nil _, fun r hr' => by rwa [List.mem_singleton.mp hr']⟩

/-- What a rule on a described level sees is of a class that every program has. -/
theorem AllConfigured.declaredType {s : Shape} (hs : s.AllConfigured source) : s.declaredType.IsNamedType := by
  rcases s.declaredType_mem with absent | ht
  · exact .inl absent
  · obtain ⟨l, hl, -, heq⟩ := mem_typesOf.mp ht
    exact heq ▸ (hs l hl).type

/-- A described shape can be described in words. -/
theorem AllConfigured.describe_ok {s : Shape} {P : Fault → Prop} (hs : s.AllConfigured source) : FailsWith P s.describe := by
  refine s.describe_fails.imp fun f uncaught => (uncaught.absurd_of_named (fun t ht => ?_) fun name hn => ?_).elim
  · obtain ⟨l, hl, -, rfl⟩ := mem_typesOf.mp ht
    exact (hs l hl).type
  · obtain ⟨l, hl, hm⟩ := mem_caseNamesOf.mp hn
    exact (hs l hl).names name hm

end Shape

/-! ### Reading shapes -/

namespace Configuration
variable {source : Value}

/-- The rules that plain data spells have parameters that stand in it. -/
theorem ofSpelling_held {v : Value} {rules : List Rule} (json : source.IsJson) (part : source.Part v)
    (h : Rule.ofSpelling (.value v) = .ok rules) : HeldRules source rules := by
  unfold Rule.ofSpelling at h
  cases part.isJson json with
  | text s =>
    cases h
    intro r hr
    cases List.mem_singleton.mp hr
    exact .inl rfl
  | mapping =>
    cases h
    intro r hr
    obtain ⟨⟨k, p⟩, hm, rfl⟩ := List.mem_map.mp hr
    obtain ⟨s, rfl, has⟩ := Settings.of_part json part k p hm
    exact .inr has
  | _ => cases h

theorem ofSpellings_held {items : List Value} {rules : List Rule} (json : source.IsJson) (parts : ∀ v ∈ items, source.Part v)
    (h : Rule.ofSpellings (items.map .value) [] = .ok rules) : HeldRules source rules := by
  unfold Rule.ofSpellings at h
  obtain ⟨each, heach, h⟩ := Except.bind_eq_ok.mp h
  cases h
  intro r hr
  rw [List.map_nil, List.append_nil] at hr
  obtain ⟨some, hsome, hr⟩ := List.mem_flatten.mp hr
  obtain ⟨spelling, hspelling, hsome⟩ := mem_mapM heach hsome
  obtain ⟨v, hv, rfl⟩ := List.mem_map.mp hspelling
  exact ofSpelling_held json (parts v hv) hsome r hr

theorem declaredRules_yields {context : Context} {config : Value} (json : source.IsJson)
    (part : config = .absent ∨ source.Part config) :
    Yields (LoadFault source) (declaredRules context config) (HeldRules source) := by
  have read {items : List Value} (parts : ∀ v ∈ items, source.Part v) :
      Yields (LoadFault source) ((Rule.ofSpellings (items.map .value) []).mapError fun f => refuse (.invalidRule f.message) context)
        (HeldRules source) := by
    cases h : Rule.ofSpellings (items.map .value) [] with
    | error f => exact .error .refuse
    | ok rules => exact .ok (ofSpellings_held json parts h)
  unfold declaredRules
  split
  · exact .ok .nil
  · next truthy =>
    obtain rfl | part := part
    · exact (truthy rfl).elim
    split
    · exact read fun v hv => List.mem_singleton.mp hv ▸ part
    · exact read fun v hv => part.item hv
    · exact .error .refuse

theorem scalarType_yields {context : Context} {name : Value} :
    Yields (LoadFault source) (scalarType context name) Value.IsNamedType := by
  unfold scalarType
  split
  · exact .ok (.inl rfl)
  · split
    · exact .ok (.inr ⟨_, rfl⟩)
    · exact .ok (.inl rfl)
    · exact .error .refuse

theorem requireKey_fails {v : Value} (hv : v.unhashable? ≠ none → NamesSchema source v) :
    FailsWith (LoadFault source) v.requireKey := by
  unfold Value.requireKey
  split
  · next c hc => exact .error (.inr (.unhashableName (hv (by simp [hc])) hc))
  · exact .ok

theorem knownSchema_fails {known : KnownSchemas} {context : Context} {entries : List (Value × Value)}
    (settings : Settings source entries) :
    FailsWith (LoadFault source) (knownSchema known context (setting entries "schema")) := by
  unfold knownSchema
  refine (requireKey_fails fun unhashable => ?_).bind fun _ _ => ?_
  · refine .inr ((settings.setting "schema").resolve_left fun absent => unhashable ?_)
    rw [absent]
    rfl
  · split
    · exact .ok
    · exact .error .refuse

variable {known : KnownSchemas}

/-- The shape of a kind is described by the data of its settings when the shapes inside it are. -/
theorem shapeOfKind_yields {context : Context} {kind : FieldKind} {entries : List (Value × Value)} (json : source.IsJson)
    (settings : Settings source entries)
    (inside : Yields (LoadFault source) (shape known context (contents entries)) (Shape.AllConfigured source))
    (values : Yields (LoadFault source) (shape known context (setting entries "values")) (Shape.AllConfigured source))
    (keys : Yields (LoadFault source) (shape known context (setting entries "keys")) (Shape.AllConfigured source))
    (variants : ∀ kind entry cases, setting entries "variants" = .mapping kind (entry :: cases) →
      Yields (LoadFault source) (shapeCases known context (entry :: cases) []) (Shape.ConfiguredCases source)) :
    Yields (LoadFault source) (shapeOfKind known context kind entries) (Shape.AllConfigured source) := by
  rw [shapeOfKind.eq_def]
  refine (declaredRules_yields json (settings.part "rules")).bind fun rules held => ?_
  cases kind with
  | scalar => exact scalarType_yields.bind fun type ht => .ok (Shape.allConfigured_scalar ht held)
  | optional | sequence => exact inside.bind fun s hs => .ok (Shape.allConfigured_wrapper hs (by simp) held)
  | mapping =>
    refine values.bind fun s hs => ?_
    dsimp only
    split
    · exact .ok (Shape.allConfigured_wrapper hs (by simp) held)
    · refine (keys.map (g := some) (R := fun k => ∀ s, k = some s → s.AllConfigured source) fun k hk s hs => ?_).bind
        fun k hk => .ok (Shape.allConfigured_wrapper hs hk held)
      exact Option.some.inj hs ▸ hk
  | nested =>
    have target : Yields (LoadFault source) (knownSchema known context (setting entries "schema")) fun _ => True :=
      ⟨knownSchema_fails settings, fun _ _ => trivial⟩
    exact target.bind fun _ _ => .ok (Shape.allConfigured_nested held)
  | enum =>
    dsimp only
    split
    · next kind entry cases hv =>
      exact (variants kind entry cases hv).bind fun all hall => .ok (Shape.allConfigured_variants hall held)
    · exact .error .refuse

/-- The shape of a configuration is described by the data that it stands in. -/
theorem shape_yields (json : source.IsJson) (context : Context) (config : Value) : config = .absent ∨ source.Part config →
    Yields (LoadFault source) (shape known context config) (Shape.AllConfigured source) := by
  refine shape.induct known
    (fun context config => config = .absent ∨ source.Part config →
      Yields (LoadFault source) (shape known context config) (Shape.AllConfigured source))
    (fun context kind entries => Settings source entries →
      Yields (LoadFault source) (shapeOfKind known context kind entries) (Shape.AllConfigured source))
    (fun context cases done => (∀ name payload, (name, payload) ∈ cases → source.Part payload) →
      Shape.ConfiguredCases source done →
        Yields (LoadFault source) (shapeCases known context cases done) (Shape.ConfiguredCases source))
    ?absent ?kind ?noKind ?noText ?named ?scalar ?ofKind ?done ?nothing ?schema ?payload context config
  case absent =>
    intro context _
    rw [shape]
    exact .ok (Shape.allConfigured_scalar (.inl rfl) .nil)
  case kind =>
    intro context kind entries fieldKind hk ih part
    rw [shape, hk]
    exact ih (.of_part json (part.resolve_left (by simp)))
  case noKind =>
    intro context kind entries hk _
    rw [shape, hk]
    exact .error .refuse
  case noText =>
    intro context config ha hm ht _
    rw [shape_of_noText ha hm ht]
    exact .error .refuse
  case named =>
    intro context config ha hm name ht kind hk ih _
    rw [shape_of_text ha hm ht, hk]
    exact ih .nil
  case scalar =>
    intro context config ha hm name ht hk _
    rw [shape_of_text ha hm ht, hk]
    exact scalarType_yields.map fun type named => Shape.allConfigured_scalar named .nil
  case ofKind =>
    intro context kind entries inside values keys variants settings
    refine shapeOfKind_yields json settings (inside settings.contents) (values (settings.part "values")) (keys (settings.part "keys"))
      fun kind entry cases hv => variants kind entry cases hv (fun name payload hm => ?_) (by simp [Shape.ConfiguredCases])
    have there := (settings.part "variants").resolve_left (by simp [hv])
    rw [hv] at there
    exact there.entry hm
  case done =>
    intro context done _ hd
    rw [shapeCases]
    exact .ok hd
  case nothing =>
    intro context done name payload rest hp ih parts hd
    rw [shapeCases]
    simp only [hp, if_true]
    refine ih _ (fun n p hm => parts n p (List.mem_cons_of_mem _ hm)) (hd.assign ?_)
    simp [Payload.levels]
  case schema =>
    intro context done name payload rest hp s hs ih parts hd
    rw [shapeCases]
    simp only [hp, hs]
    refine ih _ (fun n p hm => parts n p (List.mem_cons_of_mem _ hm)) (hd.assign ?_)
    simp [Payload.levels]
  case payload =>
    intro context done name payload rest hp hs ih shape parts hd
    rw [shapeCases]
    simp only [hp, hs]
    have here := shape (.inr (parts name payload List.mem_cons_self))
    refine (here.map (g := Payload.shape) (R := fun p => ∀ l ∈ p.levels, l.Configured source) fun s hs => ?_).bind
      fun p hp => ih p (fun n p hm => parts n p (List.mem_cons_of_mem _ hm)) (hd.assign hp)
    rwa [Payload.levels]

end Configuration

end Conform
