import Conform.Proofs.Configured
import Conform.Proofs.Numbering

/-!
The schemas that a configuration is made with. Building a shape asks for schemas by name: for the schema of every
nested shape, and for every text in the place of a variant (`Seeks`). What is built depends on the schemas
that are known only through the answers to these questions (`shape_unnumbered`, `declare_unnumbered`). The
scan for references is to find the same names beforehand; it finds those that stand where it looks
(`Needs.mem_references`).
-/

namespace Conform
namespace Configuration

mutual

/-- Building the shape of a configuration asks for the schema of a name. `seen` says whether the scan for references
looks at the place where the name stands. -/
inductive Seeks : Bool → Value → Value → Prop where
  | mapping {seen k entries kind name} (hk : kindNames.lookup (kindName entries) = some kind)
    (hs : SeeksOf seen kind entries name) : Seeks seen (.mapping k entries) name
  -- the name of a kind stands for a shape without settings, which the scan passes over
  | text {seen config s kind name} (ht : config.asText? = some s) (hk : kindNamed? s = some kind)
    (hs : SeeksOf seen kind [] name) : Seeks false config name

/-- Building a shape of a kind from its settings asks for the schema of a name. -/
inductive SeeksOf : Bool → FieldKind → List (Value × Value) → Value → Prop where
  | schema {seen entries name} (hn : name = setting entries "schema") (hseen : seen = !name.isAbsent) :
    SeeksOf seen .nested entries name
  | inItems {seen kind entries v name} (hk : kind = .optional ∨ kind = .sequence)
    (hi : Value.lookup? (.text "items") entries = some v) (hs : Seeks seen v name) : SeeksOf seen kind entries name
  | inInner {seen kind entries v name} (hk : kind = .optional ∨ kind = .sequence)
    (hi : Value.lookup? (.text "inner") entries = some v) (hs : Seeks seen v name) : SeeksOf seen kind entries name
  -- what a wrapper contains may be its `type`, which the scan does not read
  | inType {seen kind entries name} (hk : kind = .optional ∨ kind = .sequence)
    (hi : Value.lookup? (.text "items") entries = none) (hj : Value.lookup? (.text "inner") entries = none)
    (hs : Seeks seen (setting entries "type") name) : SeeksOf false kind entries name
  | inValues {seen entries name} (hs : Seeks seen (setting entries "values") name) : SeeksOf seen .mapping entries name
  | inKeys {seen entries name} (hs : Seeks seen (setting entries "keys") name) : SeeksOf seen .mapping entries name
  -- a name that is reserved is a reference to the one who builds, and none to the scan
  | variant {seen entries k cases key s name} (hv : setting entries "variants" = .mapping k cases)
    (hm : (key, name) ∈ cases) (ht : name.asText? = some s) (hseen : seen = !isReserved s) :
    SeeksOf seen .enum entries name
  | inVariant {seen entries k cases key payload name} (hv : setting entries "variants" = .mapping k cases)
    (hm : (key, payload) ∈ cases) (hs : Seeks seen payload name) : SeeksOf seen .enum entries name

end

theorem SeeksOf.inContents {seen : Bool} {kind : FieldKind} {entries : List (Value × Value)} {name : Value}
    (hk : kind = .optional ∨ kind = .sequence) (hs : Seeks seen (contents entries) name) :
    ∃ seen, SeeksOf seen kind entries name := by
  unfold contents at hs
  split at hs
  · next hi => exact ⟨seen, .inItems hk hi hs⟩
  · next hi =>
    split at hs
    · next hj => exact ⟨seen, .inInner hk hj hs⟩
    · next hj => exact ⟨false, .inType hk hi hj hs⟩

/-! ### What the scan finds -/

/-- What the scan finds in the settings of a shape. -/
def FoundIn (entries : List (Value × Value)) (refs : List Value) : Prop :=
  ∃ items inner values keys cases, shapeReferences false (setting entries "items") = .ok items ∧
    shapeReferences false (setting entries "inner") = .ok inner ∧
    shapeReferences false (setting entries "values") = .ok values ∧
    shapeReferences false (setting entries "keys") = .ok keys ∧
    (∀ k all, setting entries "variants" = .mapping k all → caseReferences all = .ok cases) ∧
    refs = nestedReference entries ++ items ++ inner ++ values ++ keys ++ cases

theorem shapeReferences_mapping {inVariant : Bool} {k : MappingKind} {entries : List (Value × Value)} {refs : List Value}
    (h : shapeReferences inVariant (.mapping k entries) = .ok refs) : FoundIn entries refs := by
  rw [shapeReferences] at h
  obtain ⟨items, hitems, h⟩ := Except.bind_eq_ok.mp h
  obtain ⟨inner, hinner, h⟩ := Except.bind_eq_ok.mp h
  obtain ⟨values, hvalues, h⟩ := Except.bind_eq_ok.mp h
  obtain ⟨keys, hkeys, h⟩ := Except.bind_eq_ok.mp h
  dsimp only at h
  split at h
  · next k' all hv =>
    obtain ⟨cases, hcases, h⟩ := Except.bind_eq_ok.mp h
    refine ⟨items, inner, values, keys, cases, hitems, hinner, hvalues, hkeys, fun k all' hv' => ?_, (Except.ok.inj h).symm⟩
    obtain ⟨-, rfl⟩ := Value.mapping.inj (hv'.symm.trans hv)
    exact hcases
  · next hv =>
    split at h
    · cases h
    · exact ⟨items, inner, values, keys, [], hitems, hinner, hvalues, hkeys, fun k all hv' => (hv _ _ hv').elim,
        (Except.ok.inj h).symm⟩

theorem nestedReference_of_kind {entries : List (Value × Value)} (hk : kindNames.lookup (kindName entries) = some .nested)
    (hn : (setting entries "schema").isAbsent = false) : nestedReference entries = [setting entries "schema"] := by
  have nested : kindName entries = "nested" := by
    simp only [kindNames, List.lookup_cons] at hk
    repeat' split at hk
    all_goals simp_all
  have given : lowerText (((Value.lookup? (.text "kind") entries).map Value.str).getD "") = "nested" := by
    unfold kindName at nested
    split at nested
    · next v hv => rw [hv, Option.map_some, Option.getD_some, nested]
    · simp at nested
  unfold nestedReference
  simp [given, hn]

theorem caseReferences_mem {key payload name : Value} : ∀ {cases : List (Value × Value)} {refs : List Value},
    (key, payload) ∈ cases → caseReferences cases = .ok refs →
    (∀ here, shapeReferences true payload = .ok here → name ∈ here) → name ∈ refs
  | (key', payload') :: rest, refs, hm, h, found => by
    rw [caseReferences] at h
    obtain ⟨here, hhere, h⟩ := Except.bind_eq_ok.mp h
    obtain ⟨later, hlater, h⟩ := Except.bind_eq_ok.mp h
    cases h
    rcases List.mem_cons.mp hm with hm | hm
    · cases hm
      exact List.mem_append_left _ (found here hhere)
    · exact List.mem_append_right _ (caseReferences_mem hm hlater found)

theorem shapeReferences_text {config : Value} {name : String} (ht : config.asText? = some name) (free : isReserved name = false)
    {refs : List Value} (h : shapeReferences true config = .ok refs) : config ∈ refs := by
  rw [shapeReferences.eq_def] at h
  split at h
  · cases ht
  · rw [ht] at h
    cases h
    simp [free]

mutual

/-- The scan finds the names that stand where it looks. -/
theorem Seeks.mem_shapeReferences : ∀ {seen : Bool} {config name : Value}, Seeks seen config name → seen = true →
    ∀ {inVariant : Bool} {refs : List Value}, shapeReferences inVariant config = .ok refs → name ∈ refs
  | _, _, _, .mapping hk hs, hseen, _, _, h => hs.mem_shapeReferences hseen hk (shapeReferences_mapping h)
  | _, _, _, .text .., hseen, _, _, _ => by cases hseen

theorem SeeksOf.mem_shapeReferences : ∀ {seen : Bool} {kind : FieldKind} {entries : List (Value × Value)} {name : Value},
    SeeksOf seen kind entries name → seen = true → kindNames.lookup (kindName entries) = some kind →
    ∀ {refs : List Value}, FoundIn entries refs → name ∈ refs
  | _, _, _, name, .schema hn hpresent, hseen, hk, _, ⟨_, _, _, _, _, _, _, _, _, _, hrefs⟩ => by
    have present : name.isAbsent = false := by simpa [hseen] using hpresent.symm
    rw [hrefs, nestedReference_of_kind hk (hn ▸ present), hn]
    simp
  | _, _, _, _, .inItems _ hi hs, hseen, _, _, ⟨items, _, _, _, _, hitems, _, _, _, _, hrefs⟩ => by
    rw [setting, hi] at hitems
    simp [hrefs, hs.mem_shapeReferences hseen hitems]
  | _, _, _, _, .inInner _ hi hs, hseen, _, _, ⟨_, inner, _, _, _, _, hinner, _, _, _, hrefs⟩ => by
    rw [setting, hi] at hinner
    simp [hrefs, hs.mem_shapeReferences hseen hinner]
  | _, _, _, _, .inType .., hseen, _, _, _ => by cases hseen
  | _, _, _, _, .inValues hs, hseen, _, _, ⟨_, _, _, _, _, _, _, hvalues, _, _, hrefs⟩ => by
    simp [hrefs, hs.mem_shapeReferences hseen hvalues]
  | _, _, _, _, .inKeys hs, hseen, _, _, ⟨_, _, _, _, _, _, _, _, hkeys, _, hrefs⟩ => by
    simp [hrefs, hs.mem_shapeReferences hseen hkeys]
  | _, _, _, _, .variant hv hm ht hfree, hseen, _, _, ⟨_, _, _, _, _, _, _, _, _, hcases, hrefs⟩ => by
    have free := (hseen.symm.trans hfree).symm
    rw [Bool.not_eq_true'] at free
    rw [hrefs]
    exact List.mem_append_right _ (caseReferences_mem hm (hcases _ _ hv) fun here => shapeReferences_text ht free)
  | _, _, _, _, .inVariant hv hm hs, hseen, _, _, ⟨_, _, _, _, _, _, _, _, _, hcases, hrefs⟩ => by
    rw [hrefs]
    exact List.mem_append_right _ (caseReferences_mem hm (hcases _ _ hv) fun here => hs.mem_shapeReferences hseen)

end

/-- Some schemas answer for a name what others answer, without numbers. -/
def Answers (known known' : KnownSchemas) (name : Value) : Prop :=
  Value.lookup? name known' = (Value.lookup? name known).map Schema.unnumbered

section Shapes
variable {known known' : KnownSchemas}

theorem knownSchema_unnumbered {context : Context} {name : Value} (answers : Answers known known' name) :
    knownSchema known' context name = (knownSchema known context name).map Schema.unnumbered := by
  unfold knownSchema
  rcases name.requireKey with e | u
  · rfl
  · rw [answers]
    rcases Value.lookup? name known with _ | s <;> rfl

theorem variantSchema?_unnumbered {payload : Value} (answers : payload.asText?.isSome = true → Answers known known' payload) :
    variantSchema? known' payload = (variantSchema? known payload).map Schema.unnumbered := by
  unfold variantSchema?
  cases ht : payload.asText? with
  | none => rfl
  | some s => exact answers (by rw [ht]; rfl)

/-- Shapes of a kind are alike when the schemas that are asked for are, and the shapes inside. -/
theorem shapeOfKind_unnumbered {context : Context} {kind : FieldKind} {entries : List (Value × Value)}
    (target : kind = .nested → Answers known known' (setting entries "schema"))
    (inside : kind = .optional ∨ kind = .sequence → shape known' context (contents entries)
      = (shape known context (contents entries)).map Shape.unnumbered)
    (values : kind = .mapping → shape known' context (setting entries "values")
      = (shape known context (setting entries "values")).map Shape.unnumbered)
    (keys : kind = .mapping → shape known' context (setting entries "keys")
      = (shape known context (setting entries "keys")).map Shape.unnumbered)
    (variants : kind = .enum → ∀ k entry cases, setting entries "variants" = .mapping k (entry :: cases) →
      shapeCases known' context (entry :: cases) []
        = (shapeCases known context (entry :: cases) []).map Shape.unnumberedCases) :
    shapeOfKind known' context kind entries = (shapeOfKind known context kind entries).map Shape.unnumbered := by
  rw [shapeOfKind.eq_def, shapeOfKind.eq_def]
  rcases declaredRules context (setting entries "rules") with e | rules
  · rfl
  cases kind with
  | scalar =>
    simp only [bind, Except.bind]
    rcases scalarType context (setting entries "type") with e | t <;> simp [Except.map, pure, Except.pure]
  | optional | sequence =>
    simp only [bind, Except.bind, inside (by simp)]
    rcases shape known context (contents entries) with e | s <;>
      simp [Except.map, pure, Except.pure, Shape.unnumberedInner]
  | mapping =>
    simp only [bind, Except.bind, values rfl, keys rfl]
    rcases shape known context (setting entries "values") with e | inner
    · rfl
    · simp only [Except.map]
      split
      · simp [pure, Except.pure, Shape.unnumberedInner]
      · rcases shape known context (setting entries "keys") with e | k <;>
          simp [pure, Except.pure, Shape.unnumberedInner]
  | nested =>
    simp only [bind, Except.bind, knownSchema_unnumbered (target rfl)]
    rcases knownSchema known context (setting entries "schema") with e | s <;>
      simp [Except.map, pure, Except.pure, Target.unnumbered]
  | enum =>
    simp only [bind, Except.bind]
    split
    · next k entry cases hv =>
      rw [variants rfl k entry cases hv]
      rcases shapeCases known context (entry :: cases) [] with e | all <;>
        simp [Except.map, pure, Except.pure]
    · rfl

/-- What is built from a configuration depends on the known schemas only through what they answer for the names
that are asked for. -/
theorem shape_unnumbered (context : Context) (config : Value) :
    (∀ seen name, Seeks seen config name → Answers known known' name) →
    shape known' context config = (shape known context config).map Shape.unnumbered := by
  -- The cases of a choice are built after one another, so their motive is about what was built before.
  refine shape.induct known
    (fun context config => (∀ seen name, Seeks seen config name → Answers known known' name) →
      shape known' context config = (shape known context config).map Shape.unnumbered)
    (fun context kind entries => (∀ seen name, SeeksOf seen kind entries name → Answers known known' name) →
      shapeOfKind known' context kind entries = (shapeOfKind known context kind entries).map Shape.unnumbered)
    (fun context cases done => (∀ key payload, (key, payload) ∈ cases →
        (payload.asText?.isSome = true → Answers known known' payload) ∧
        ∀ seen name, Seeks seen payload name → Answers known known' name) →
      shapeCases known' context cases (Shape.unnumberedCases done)
        = (shapeCases known context cases done).map Shape.unnumberedCases)
    ?absent ?kind ?noKind ?noText ?named ?scalar ?ofKind ?done ?nothing ?schema ?payload context config
  case absent =>
    intro context _
    rw [shape, shape]
    simp [Except.map]
  case kind =>
    intro context kind entries fieldKind hk ih seeks
    rw [shape, shape, hk]
    exact ih fun seen name hn => seeks seen name (.mapping hk hn)
  case noKind =>
    intro context kind entries hk _
    rw [shape, shape, hk]
    rfl
  case noText =>
    intro context config ha hm ht _
    rw [shape_of_noText ha hm ht, shape_of_noText ha hm ht]
    rfl
  case named =>
    intro context config ha hm name ht kind hk ih seeks
    rw [shape_of_text ha hm ht, shape_of_text ha hm ht, hk]
    exact ih fun seen n hn => seeks false n (.text ht hk hn)
  case scalar =>
    intro context config ha hm name ht hk _
    rw [shape_of_text ha hm ht, shape_of_text ha hm ht, hk]
    rcases scalarType context config with e | t <;> simp [Except.map]
  case ofKind =>
    intro context kind entries inside values keys variants seeks
    refine shapeOfKind_unnumbered (fun hk => ?_) (fun hk => ?_) (fun hk => ?_) (fun hk => ?_) fun hk k entry cases hv => ?_
    · subst hk
      exact seeks _ _ (.schema rfl rfl)
    · refine inside fun seen name hn => ?_
      obtain ⟨seen', hs⟩ := SeeksOf.inContents hk hn
      exact seeks seen' name hs
    · subst hk
      exact values fun seen name hn => seeks seen name (.inValues hn)
    · subst hk
      exact keys fun seen name hn => seeks seen name (.inKeys hn)
    · subst hk
      have cases' := variants k entry cases hv fun key payload hm =>
        ⟨fun ht => seeks _ payload (.variant hv hm (Option.get_mem ht) rfl), fun seen name hn => seeks seen name (.inVariant hv hm hn)⟩
      rwa [Shape.unnumberedCases] at cases'
  case done =>
    intro context done _
    rw [shapeCases, shapeCases]
    rfl
  case nothing =>
    intro context done name payload rest hp ih seeks
    have later := ih (.target (.value .absent)) fun key p hm => seeks key p (List.mem_cons_of_mem _ hm)
    rw [Shape.unnumberedCases_assign, Payload.unnumbered, Target.unnumbered] at later
    rw [shapeCases, shapeCases]
    simp only [hp, if_true]
    exact later
  case schema =>
    intro context done name payload rest hp s hs ih seeks
    have later := ih (.target (.schema s)) fun key p hm => seeks key p (List.mem_cons_of_mem _ hm)
    rw [Shape.unnumberedCases_assign, Payload.unnumbered, Target.unnumbered] at later
    have hs' := variantSchema?_unnumbered (seeks name payload List.mem_cons_self).1
    rw [hs] at hs'
    rw [shapeCases, shapeCases]
    simp only [hp, hs, hs', Option.map_some]
    exact later
  case payload =>
    intro context done name payload rest hp hs ih shape seeks
    have hs' := variantSchema?_unnumbered (seeks name payload List.mem_cons_self).1
    rw [hs] at hs'
    rw [shapeCases, shapeCases]
    simp only [hp, hs, hs', Option.map_none, shape (seeks name payload List.mem_cons_self).2]
    rcases Configuration.shape known (context.set "variant" name) payload with e | s
    · rfl
    · have later := ih (.shape s) fun key p hm => seeks key p (List.mem_cons_of_mem _ hm)
      rw [Shape.unnumberedCases_assign, Payload.unnumbered] at later
      exact later

end Shapes

/-- Declaring the schema of a configuration asks for the schema of a name. -/
inductive Needs (seen : Bool) (config : List (Value × Value)) (name : Value) : Prop where
  | mk {items k entries shape} (hf : Value.lookup? (.text "fields") config = some (.list items))
    (hm : Value.mapping k entries ∈ items) (hs : Value.lookup? (.text "shape") entries = some shape)
    (hn : Seeks seen shape name)

theorem fieldReferences_mem {k : MappingKind} {entries : List (Value × Value)} {name : Value} :
    ∀ {items : List Value} {refs : List Value}, .mapping k entries ∈ items → fieldReferences items = .ok refs →
      (∀ here, shapeReferences false (setting entries "shape") = .ok here → name ∈ here) → name ∈ refs
  | item :: rest, refs, hm, h, found => by
    rcases List.mem_cons.mp hm with rfl | hm
    · rw [fieldReferences] at h
      obtain ⟨here, hhere, h⟩ := Except.bind_eq_ok.mp h
      obtain ⟨later, -, h⟩ := Except.bind_eq_ok.mp h
      cases h
      exact List.mem_append_left _ (found here hhere)
    · have inRest {later : List Value} (hlater : fieldReferences rest = .ok later) : name ∈ later :=
        fieldReferences_mem hm hlater found
      cases item with
      | mapping k' entries' =>
        rw [fieldReferences] at h
        obtain ⟨here, -, h⟩ := Except.bind_eq_ok.mp h
        obtain ⟨later, hlater, h⟩ := Except.bind_eq_ok.mp h
        cases h
        exact List.mem_append_right _ (inRest hlater)
      | _ => exact inRest (by rwa [fieldReferences] at h; simp)

/-- The names that a declaration asks for are among the references that the scan finds, if they stand where it looks. -/
theorem Needs.mem_references {config : List (Value × Value)} {name : Value} {refs : List Value}
    (needs : Needs true config name) (h : references config = .ok refs) : name ∈ refs := by
  obtain @⟨items, k, entries, shape, hf, hm, hs, hn⟩ := needs
  have fields : setting config "fields" = .list items := by rw [setting, hf]; rfl
  unfold references at h
  simp only [fields] at h
  split at h
  · next hempty =>
    obtain rfl : items = [] := by simpa [Value.truthy, Value.length?] using hempty
    cases hm
  · refine fieldReferences_mem hm h fun here hhere => ?_
    rw [setting, hs] at hhere
    exact hn.mem_shapeReferences rfl hhere

end Configuration

namespace Factory

open Conform.Configuration

section Declare
variable {h : Host} {t t' : FunctionTable} {known known' : KnownSchemas}

theorem fieldShape_unnumbered {context : Context} {entries : List (Value × Value)}
    (seeks : ∀ shape, Value.lookup? (.text "shape") entries = some shape →
      ∀ seen name, Seeks seen shape name → Answers known known' name) :
    fieldShape known' context entries = (fieldShape known context entries).map Shape.unnumbered := by
  have optional (s : Shape) : (if ((setting entries "optional").truthy && !isOptional s.unnumbered) = true then
        pure (.wrapper .optional (some s.unnumbered) none []) else pure s.unnumbered : Except Fault Shape)
      = (if ((setting entries "optional").truthy && !isOptional s) = true then
        pure (.wrapper .optional (some s) none []) else pure s : Except Fault Shape).map Shape.unnumbered := by
    rw [isOptional, isOptional, Shape.kind_unnumbered]
    split <;> simp [pure, Except.pure, Except.map, Shape.unnumberedInner]
  unfold fieldShape
  cases hs : Value.lookup? (.text "shape") entries with
  | none =>
    dsimp only
    rcases scalarType context (setting entries "type") with e | type
    · rfl
    · have result := optional (.scalar type [])
      rw [Shape.unnumbered_scalar] at result
      exact result
  | some config =>
    dsimp only
    rw [shape_unnumbered context config (seeks config hs)]
    rcases shape known context config with e | s
    · rfl
    · exact optional s

/-- Declaring a named field makes its shape, reads its rules, and declares it with both. -/
theorem addField_eq (b : SchemaBuilder) {k : MappingKind} {entries : List (Value × Value)} {name : Value}
    (hn : Value.lookup? (.text "name") entries = some name) :
    addField h t known b (.mapping k entries) =
      fieldShape known [("schema", b.name), ("field", name)] entries >>= fun s =>
        declaredRules [("schema", b.name), ("field", name)] (setting entries "rules") >>= fun rules =>
          b.field h t name (.shape s) (rules.map .rule) [] := by
  unfold addField
  simp only [hn]

/-- What is declared for the value as a whole, after the fields. -/
def addChecks (h : Host) (t : FunctionTable) (name : Value) (config : List (Value × Value)) (b : SchemaBuilder) :
    Except Fault SchemaBuilder :=
  if !(setting config "checks").truthy then .ok b
  else declaredRules [("schema", name)] (setting config "checks") >>= fun rules => b.check h t (rules.map .rule) []

/-- A declaration adds the fields of a list, or none, and then the checks. -/
theorem declare_eq (name : Value) (config : List (Value × Value)) :
    declare h t known name config = match Value.lookup? (.text "fields") config with
      | none => addChecks h t name config (builder name (setting config "description"))
      | some (.list items) => items.foldlM (addField h t known) (builder name (setting config "description")) >>=
          addChecks h t name config
      | some _ => .error (refuse (.fieldsNotList name) [("schema", name)]) := by
  unfold declare
  rcases Value.lookup? (.text "fields") config with _ | fields
  · rfl
  · cases fields with
    | sequence kind items => cases kind <;> rfl
    | _ => rfl

variable (fair : t.Impartial h) (ht : t'.functions = t.functions)
include fair ht

theorem addField_unnumbered {config : Value} (b : SchemaBuilder)
    (seeks : ∀ k entries shape, config = .mapping k entries → Value.lookup? (.text "shape") entries = some shape →
      ∀ seen name, Seeks seen shape name → Answers known known' name) :
    addField h t' known' b.unnumbered config = (addField h t known b config).map SchemaBuilder.unnumbered := by
  cases config with
  | mapping k entries =>
    cases hn : Value.lookup? (.text "name") entries with
    | none => simp [addField, hn, throw, throwThe, MonadExceptOf.throw, Except.map, SchemaBuilder.unnumbered]
    | some name =>
      have shaped : fieldShape known' [("schema", b.name), ("field", name)] entries
          = (fieldShape known [("schema", b.name), ("field", name)] entries).map Shape.unnumbered :=
        fieldShape_unnumbered fun shape => seeks k entries shape rfl
      rw [addField_eq b hn, addField_eq b.unnumbered hn, SchemaBuilder.unnumbered, shaped]
      rcases fieldShape known [("schema", b.name), ("field", name)] entries with e | s
      · rfl
      · simp only [Except.map, bind, Except.bind]
        rcases declaredRules [("schema", b.name), ("field", name)] (setting entries "rules") with e | rules
        · rfl
        · exact SchemaBuilder.field_unnumbered fair ht name s (rules.map .rule) []
  | _ => rfl

theorem addChecks_unnumbered (name : Value) (config : List (Value × Value)) (b : SchemaBuilder) :
    addChecks h t' name config b.unnumbered = (addChecks h t name config b).map SchemaBuilder.unnumbered := by
  unfold addChecks
  split
  · rfl
  · rcases declaredRules [("schema", name)] (setting config "checks") with e | rules
    · rfl
    · exact SchemaBuilder.check_unnumbered fair ht (rules.map .rule) []

/-- What a configuration declares depends on the known schemas only through what they answer for the names that are
asked for. -/
theorem declare_unnumbered {name : Value} {config : List (Value × Value)}
    (needs : ∀ seen n, Needs seen config n → Answers known known' n) :
    declare h t' known' name config = (declare h t known name config).map SchemaBuilder.unnumbered := by
  have start : (builder name (setting config "description")).unnumbered = builder name (setting config "description") := by
    simp [builder, SchemaBuilder.unnumbered, Schema.unnumberedFields]
  rw [declare_eq, declare_eq]
  split
  · have checked := addChecks_unnumbered fair ht name config (builder name (setting config "description"))
    rwa [start] at checked
  · next items hf =>
    have declared : items.foldlM (addField h t' known') (builder name (setting config "description")).unnumbered
        = (items.foldlM (addField h t known) (builder name (setting config "description"))).map
          SchemaBuilder.unnumbered :=
      foldlM_map fun item hm b =>
        addField_unnumbered fair ht b fun k entries shape hi hs seen n hn => needs seen n (.mk hf (hi ▸ hm) hs hn)
    rw [start] at declared
    rw [declared]
    rcases items.foldlM (addField h t known) (builder name (setting config "description")) with e | b
    · rfl
    · exact addChecks_unnumbered fair ht name config b
  · rfl

end Declare
end Factory
end Conform
