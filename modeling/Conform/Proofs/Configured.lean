import Conform.Configuration.Factory
import Conform.Proofs.Declared

/-!
What the schemas of configurations are made of. The shapes of a configuration hold no schemas but those that the
factory knows, and a factory comes to know no schemas but those that it creates; so everything that a
factory creates is sound when what it knew at the start is.
-/

namespace Conform
namespace Configuration

/-- Every one of some named schemas has a property. -/
def Every (P : Schema → Prop) (schemas : List (Value × Schema)) : Prop := ∀ n u, (n, u) ∈ schemas → P u

theorem Every.assign {P : Schema → Prop} {schemas : List (Value × Schema)} {name : Value} {s : Schema} (hs : P s)
    (h : Every P schemas) : Every P (Value.assign name s schemas) := by
  intro n u hu
  obtain hu | ⟨rfl, -⟩ := Value.mem_assign hu
  · exact h n u hu
  · exact hs

/-! ### Shapes -/

theorem knownSchema_mem {known : KnownSchemas} {context : Context} {name : Value} {s : Schema}
    (h : knownSchema known context name = .ok s) : ∃ n, (n, s) ∈ known := by
  unfold knownSchema at h
  obtain ⟨u, -, h⟩ := Except.bind_eq_ok.mp h
  split at h
  · next hs =>
    cases h
    exact Value.lookup?_mem hs
  · cases h

theorem variantSchema?_mem {known : KnownSchemas} {payload : Value} {s : Schema}
    (h : variantSchema? known payload = some s) : ∃ n, (n, s) ∈ known := by
  unfold variantSchema? at h
  split at h
  · exact Value.lookup?_mem h
  · cases h

/-- Some schemas are all known. -/
def Known (known : KnownSchemas) (schemas : List Schema) : Prop := ∀ u ∈ schemas, ∃ n, (n, u) ∈ known

variable {known : KnownSchemas}

theorem Known.assign {cases : List (Value × Payload)} {name : Value} {payload : Payload}
    (hc : Known known (Shape.caseSchemas cases)) (hp : Known known payload.schemas) :
    Known known (Shape.caseSchemas (Value.assign name payload cases)) := by
  intro u hu
  obtain ⟨n, q, hm, hq⟩ := Shape.mem_caseSchemas.mp hu
  obtain hm | ⟨rfl, -⟩ := Value.mem_assign hm
  · exact hc u (Shape.mem_caseSchemas.mpr ⟨n, q, hm, hq⟩)
  · exact hp u hq

theorem known_scalar (type : Value) (rules : List Rule) : Known known (Shape.scalar type rules).schemas := by
  simp [Known]

/-- A text names a kind or a class of scalars. -/
theorem shape_of_text {context : Context} {config : Value} (ha : config = .absent → False)
    (hm : ∀ kind entries, config = .mapping kind entries → False) {name : String} (ht : config.asText? = some name) :
    shape known context config = match kindNamed? name with
      | some kind => shapeOfKind known context kind []
      | none => (scalarType context config).map fun t => .scalar t [] := by
  rw [shape.eq_def]
  split
  · exact (ha rfl).elim
  · exact (hm _ _ rfl).elim
  · split
    · next hnone => cases hnone.symm.trans ht
    · next hname =>
      cases hname.symm.trans ht
      rfl

/-- What is neither a mapping nor a text describes no shape. -/
theorem shape_of_noText {context : Context} {config : Value} (ha : config = .absent → False)
    (hm : ∀ kind entries, config = .mapping kind entries → False) (ht : config.asText? = none) :
    shape known context config = .error (refuse (.invalidShape config) context) := by
  rw [shape.eq_def]
  split
  · exact (ha rfl).elim
  · exact (hm _ _ rfl).elim
  · split
    · rfl
    · next hname => cases ht.symm.trans hname

/-- The shape of a kind holds known schemas only, when the shapes inside it do. -/
theorem known_shapeOfKind {context : Context} {kind : FieldKind} {entries : List (Value × Value)}
    (inside : ∀ s, shape known context (contents entries) = .ok s → Known known s.schemas)
    (values : ∀ s, shape known context (setting entries "values") = .ok s → Known known s.schemas)
    (keys : ∀ s, shape known context (setting entries "keys") = .ok s → Known known s.schemas)
    (variants : ∀ kind entry cases, setting entries "variants" = .mapping kind (entry :: cases) →
      ∀ all, shapeCases known context (entry :: cases) [] = .ok all → Known known (Shape.caseSchemas all))
    {s : Shape} (h : shapeOfKind known context kind entries = .ok s) : Known known s.schemas := by
  rw [shapeOfKind.eq_def] at h
  obtain ⟨rules, -, h⟩ := Except.bind_eq_ok.mp h
  cases kind with
  | scalar =>
    obtain ⟨t, -, h⟩ := Except.bind_eq_ok.mp h
    cases h
    exact known_scalar _ _
  | optional | sequence =>
    obtain ⟨inner, hinner, h⟩ := Except.bind_eq_ok.mp h
    cases h
    simpa [Shape.innerSchemas] using inside inner hinner
  | mapping =>
    obtain ⟨inner, hinner, h⟩ := Except.bind_eq_ok.mp h
    dsimp only at h
    split at h
    · cases h
      simpa [Shape.innerSchemas] using values inner hinner
    · obtain ⟨_, hkeys, h⟩ := Except.bind_eq_ok.mp h
      obtain ⟨k, hk, rfl⟩ := Except.map_eq_ok.mp hkeys
      cases h
      intro u hu
      simp only [Shape.schemas_wrapper, Shape.innerSchemas] at hu
      exact (List.mem_append.mp hu).elim (values inner hinner u) (keys k hk u)
  | nested =>
    obtain ⟨target, htarget, h⟩ := Except.bind_eq_ok.mp h
    cases h
    intro u hu
    simp only [Shape.schemas_nested, Target.schemas, List.mem_singleton] at hu
    exact hu ▸ knownSchema_mem htarget
  | enum =>
    dsimp only at h
    split at h
    · next kind entry cases hv =>
      obtain ⟨all, hall, h⟩ := Except.bind_eq_ok.mp h
      cases h
      rw [Shape.schemas_variants]
      exact variants kind entry cases hv all hall
    · cases h

/-- The shape of a configuration holds known schemas only. -/
theorem known_shape (context : Context) (config : Value) : ∀ s : Shape, shape known context config = .ok s →
    Known known s.schemas := by
  refine shape.induct known
    (fun context config => ∀ s, shape known context config = .ok s → Known known s.schemas)
    (fun context kind entries => ∀ s, shapeOfKind known context kind entries = .ok s → Known known s.schemas)
    (fun context cases done => Known known (Shape.caseSchemas done) →
      ∀ all, shapeCases known context cases done = .ok all → Known known (Shape.caseSchemas all))
    ?absent ?kind ?noKind ?noText ?named ?scalar ?ofKind ?done ?nothing ?schema ?payload context config
  case absent =>
    intro context s h
    rw [shape] at h
    cases h
    exact known_scalar _ _
  case kind =>
    intro context kind entries fieldKind hk ih s h
    rw [shape, hk] at h
    exact ih s h
  case noKind =>
    intro context kind entries hk s h
    rw [shape, hk] at h
    cases h
  case noText =>
    intro context config ha hm ht s h
    rw [shape_of_noText ha hm ht] at h
    cases h
  case named =>
    intro context config ha hm name ht kind hk ih s h
    rw [shape_of_text ha hm ht, hk] at h
    exact ih s h
  case scalar =>
    intro context config ha hm name ht hk s h
    rw [shape_of_text ha hm ht, hk] at h
    obtain ⟨t, -, rfl⟩ := Except.map_eq_ok.mp h
    exact known_scalar _ _
  case ofKind =>
    intro context kind entries inside values keys variants s h
    refine known_shapeOfKind inside values keys (fun kind entry cases hv => ?_) h
    exact variants kind entry cases hv (by simp [Known, Shape.caseSchemas])
  case done =>
    intro context done hd all h
    rw [shapeCases] at h
    cases h
    exact hd
  case nothing =>
    intro context done name payload rest hp ih hd all h
    rw [shapeCases] at h
    simp only [hp, if_true] at h
    exact ih _ (hd.assign (by simp [Known, Payload.schemas, Target.schemas])) all h
  case schema =>
    intro context done name payload rest hp s hs ih hd all h
    rw [shapeCases] at h
    simp only [hp, hs] at h
    refine ih _ (hd.assign fun u hu => ?_) all h
    simp only [Payload.schemas, Target.schemas, List.mem_singleton] at hu
    exact hu ▸ variantSchema?_mem hs
  case payload =>
    intro context done name payload rest hp hs ih shape hd all h
    rw [shapeCases] at h
    simp only [hp, hs] at h
    obtain ⟨p, hp, h⟩ := Except.bind_eq_ok.mp h
    obtain ⟨s, hs, rfl⟩ := Except.map_eq_ok.mp hp
    refine ih _ (hd.assign ?_) all h
    simpa [Payload.schemas] using shape s hs

end Configuration

/-! ### Declaring configured schemas -/

namespace Factory

open Conform.Configuration

section Declare
variable {h : Host} {t : FunctionTable} {known : KnownSchemas} {b b' : SchemaBuilder}

theorem known_fieldShape {context : Context} {entries : List (Value × Value)} {s : Shape}
    (hs : fieldShape known context entries = .ok s) : Known known s.schemas := by
  have optional {base : Shape} (hb : Known known base.schemas)
      (hs : (if ((setting entries "optional").truthy && !isOptional base) = true then
        pure (.wrapper .optional (some base) none []) else pure base : Except Fault Shape) = .ok s) :
      Known known s.schemas := by
    split at hs
    · cases hs
      simpa [Shape.innerSchemas] using hb
    · cases hs
      exact hb
  unfold fieldShape at hs
  dsimp only at hs
  split at hs
  · obtain ⟨base, hbase, hs⟩ := Except.bind_eq_ok.mp hs
    exact optional (known_shape _ _ base hbase) hs
  · obtain ⟨base, hbase, hs⟩ := Except.bind_eq_ok.mp hs
    obtain ⟨type, -, rfl⟩ := Except.map_eq_ok.mp hbase
    exact optional (known_scalar _ _) hs

theorem addField_sound {config : Value} (hk : Every Schema.Sound known) (hb : b.Sound)
    (hf : addField h t known b config = .ok b') : b'.Sound := by
  unfold addField at hf
  dsimp only at hf
  split at hf
  · split at hf
    · obtain ⟨shape, hshape, hf⟩ := Except.bind_eq_ok.mp hf
      obtain ⟨rules, -, hf⟩ := Except.bind_eq_ok.mp hf
      refine SchemaBuilder.field_sound hb (fun u hu => ?_) hf
      obtain ⟨n, hn⟩ := known_fieldShape hshape u hu
      exact hk n u hn
    · cases hf
  · cases hf

/-- A configuration declares a sound builder when the schemas that it can refer to are sound. -/
theorem declare_sound {name : Value} {config : List (Value × Value)} (hk : Every Schema.Sound known)
    (hd : declare h t known name config = .ok b) : b.Sound := by
  have fields_sound {fields : List Value} {b' : SchemaBuilder}
      (hb' : fields.foldlM (addField h t known) (builder name (setting config "description")) = .ok b') :
      b'.Sound := by
    refine foldlM_invariant (P := SchemaBuilder.Sound) (fun b hb field _ b' hb' => addField_sound hk hb hb') ?_ hb'
    simp [SchemaBuilder.Sound, builder]
  have checks_sound {b' : SchemaBuilder} (sound : b'.Sound)
      (hd : (if (!(setting config "checks").truthy) = true then pure b' else do
        let rules ← declaredRules [("schema", name)] (setting config "checks")
        b'.check h t (rules.map .rule) []) = .ok b) : b.Sound := by
    split at hd
    · cases hd
      exact sound
    · obtain ⟨rules, -, hd⟩ := Except.bind_eq_ok.mp hd
      exact SchemaBuilder.check_sound sound hd
  unfold declare at hd
  dsimp only at hd
  split at hd
  · obtain ⟨fields, -, hd⟩ := Except.bind_eq_ok.mp hd
    obtain ⟨b', hb', hd⟩ := Except.bind_eq_ok.mp hd
    exact checks_sound (fields_sound hb') hd
  · obtain ⟨fields, -, hd⟩ := Except.bind_eq_ok.mp hd
    obtain ⟨b', hb', hd⟩ := Except.bind_eq_ok.mp hd
    exact checks_sound (fields_sound hb') hd
  · cases hd

end Declare

/-! ### Creating schemas -/

end Factory

/-- Runs a computation with a factory. -/
def Creation.runWith {α : Type} (x : Creation α) (f : Factory) : Except Fault α × Factory := x.run f

namespace Factory

open Conform.Configuration

/-- A computation that, run with a factory whose schemas have a property, leaves it with such schemas and
gives a result of some kind. -/
def Keeps {α : Type} (P : Schema → Prop) (x : Creation α) (Q : α → Prop) : Prop :=
  ∀ f, Every P f.schemas →
    Every P (x.runWith f).2.schemas ∧ ∀ a, (x.runWith f).1 = .ok a → Q a

variable {α β : Type} {P : Schema → Prop} {Q : α → Prop} {R : β → Prop}

theorem runWith_bind (x : Creation α) (g : α → Creation β) (f : Factory) :
    (x >>= g).runWith f = match x.runWith f with
      | (.ok a, f') => (g a).runWith f'
      | (.error e, f') => (.error e, f') := by
  unfold Creation.runWith
  change ((x.run f : Except Fault α × Factory) |> fun r => ExceptT.bindCont g r.1 r.2) = _
  rcases x.run f with ⟨_ | _, _⟩ <;> rfl

theorem Keeps.pure {a : α} (ha : Q a) : Keeps P (Pure.pure a) Q := by
  intro f hf
  refine ⟨hf, fun b hb => ?_⟩
  cases hb
  exact ha

theorem Keeps.throw (e : Fault) : Keeps P (MonadExcept.throw e) Q := by
  intro f hf
  exact ⟨hf, fun b hb => by cases hb⟩

theorem Keeps.liftExcept {e : Except Fault α} (he : ∀ a, e = .ok a → Q a) : Keeps P (create.liftExcept e) Q := by
  intro f hf
  exact ⟨hf, fun b hb => he b hb⟩

theorem Keeps.bind {x : Creation α} {g : α → Creation β} (hx : Keeps P x Q) (hg : ∀ a, Q a → Keeps P (g a) R) :
    Keeps P (x >>= g) R := by
  intro f hf
  obtain ⟨hf', hr⟩ := hx f hf
  rw [runWith_bind]
  rcases hrun : x.runWith f with ⟨e | a, f'⟩
  · rw [hrun] at hf'
    exact ⟨hf', fun b hb => by cases hb⟩
  · rw [hrun] at hf' hr
    exact hg a (hr a rfl) f' hf'

/-- Looking at the factory's schemas keeps them. -/
theorem Keeps.get : Keeps P (MonadState.get : Creation Factory) fun _ => True := by
  intro f hf
  exact ⟨hf, fun _ _ => trivial⟩

/-- Lifting what may fail leaves the factory. -/
theorem runWith_liftExcept (e : Except Fault α) (f : Factory) : (create.liftExcept e).runWith f = (e, f) := rfl

theorem runWith_get (f : Factory) : (get : Creation Factory).runWith f = (.ok f, f) := rfl

theorem runWith_set (f' f : Factory) : (set f' : Creation PUnit).runWith f = (.ok ⟨⟩, f') := rfl

/-! ### What runs end with -/

/-- A computation, run with a factory, ends with something of a kind, or fails in some way. -/
def Ends {α : Type} (F : Fault → Prop) (x : Creation α) (f : Factory) (Q : α → Factory → Prop) : Prop :=
  match x.runWith f with
  | (.ok a, f') => Q a f'
  | (.error e, _) => F e

section Ends
variable {F : Fault → Prop} {x : Creation α} {f : Factory} {Q : α → Factory → Prop} {R : β → Factory → Prop}

theorem Ends.pure {a : α} (ha : Q a f) : Ends F (Pure.pure a) f Q := ha

theorem Ends.throw {e : Fault} (he : F e) : Ends F (MonadExcept.throw e : Creation α) f Q := he

theorem Ends.liftExcept {e : Except Fault α} (ok : ∀ a, e = .ok a → Q a f) (failed : ∀ g, e = .error g → F g) :
    Ends F (create.liftExcept e) f Q := by
  unfold Ends
  rw [runWith_liftExcept]
  cases e with
  | ok a => exact ok a rfl
  | error g => exact failed g rfl

theorem Ends.bind {g : α → Creation β} (hx : Ends F x f Q) (hg : ∀ a f', Q a f' → Ends F (g a) f' R) :
    Ends F (x >>= g) f R := by
  unfold Ends at hx
  unfold Ends
  rw [runWith_bind]
  rcases hrun : x.runWith f with ⟨e | a, f'⟩
  · rw [hrun] at hx
    exact hx
  · rw [hrun] at hx
    exact hg a f' hx

theorem Ends.imp {Q' : α → Factory → Prop} (hx : Ends F x f Q) (h : ∀ a f', Q a f' → Q' a f') : Ends F x f Q' := by
  unfold Ends at hx ⊢
  rcases hrun : x.runWith f with ⟨e | a, f'⟩
  · rwa [hrun] at hx
  · rw [hrun] at hx
    exact h a f' hx

theorem Ends.get {S : Factory → Factory → Prop} (h : S f f) : Ends F (MonadState.get : Creation Factory) f S := h

end Ends

/-- What creating a schema does: nothing when its declaration fails, else it is built, and it is remembered
when its name can be a key. -/
theorem create_run (h : Host) (config : List (Value × Value)) (f : Factory) :
    (create h config).runWith f =
      (let name := (Value.lookup? (.text "name") config).getD (.text "unnamed_schema")
       let made : Factory := { f with table := f.table.freeze, nextSerial := f.nextSerial + 1 }
       match declare h f.table f.schemas name config with
        | .error e => (.error e, f)
        | .ok b => match name.requireKey with
          | .error e => (.error e, made)
          | .ok _ => (.ok (b.build f.nextSerial),
              { made with schemas := Value.assign name (b.build f.nextSerial) f.schemas })) := by
  unfold create
  rw [runWith_bind, runWith_get]
  dsimp only
  rw [runWith_bind, runWith_liftExcept]
  cases declare h f.table f.schemas ((Value.lookup? (.text "name") config).getD (.text "unnamed_schema")) config with
  | error e => rfl
  | ok b =>
    dsimp only
    rw [runWith_bind, runWith_set]
    dsimp only
    rw [runWith_bind, runWith_liftExcept]
    cases ((Value.lookup? (.text "name") config).getD (.text "unnamed_schema")).requireKey <;> rfl

/-- Creating a schema keeps a property that every created schema gets from those before it. -/
theorem Keeps.create {h : Host} {config : List (Value × Value)}
    (hc : ∀ f s f', Every P f.schemas → (create h config).runWith f = (.ok s, f') → P s) :
    Keeps P (create h config) P := by
  intro f hf
  refine ⟨?_, fun s hs => hc f s _ hf (Prod.ext hs rfl)⟩
  have created := fun s f' => hc f s f' hf
  rw [create_run] at created ⊢
  dsimp only at created ⊢
  cases hb : declare h f.table f.schemas ((Value.lookup? (.text "name") config).getD (.text "unnamed_schema")) config with
  | error e => exact hf
  | ok b =>
    cases hk : ((Value.lookup? (.text "name") config).getD (.text "unnamed_schema")).requireKey with
    | error e => exact hf
    | ok u =>
      rw [hb] at created
      dsimp only at created
      rw [hk] at created
      exact Every.assign (created _ _ rfl) hf

/-- A created schema is sound when those that it can refer to are. -/
theorem create_sound {h : Host} {config : List (Value × Value)} {f f' : Factory} {s : Schema}
    (hk : Every Schema.Sound f.schemas) (hs : (create h config).runWith f = (.ok s, f')) : s.Sound := by
  rw [create_run] at hs
  dsimp only at hs
  split at hs
  · cases hs
  · next b hb =>
    split at hs
    · cases hs
    · cases hs
      exact SchemaBuilder.build_sound (declare_sound hk hb) _

/-! ### Creating sets of schemas -/

theorem takeDefinition_some {name : Value} : ∀ {pending : List Definition} {config : List (Value × Value)}
    {rest : { rest : List Definition // rest.length < pending.length }}, takeDefinition name pending = some (config, rest) →
    ∃ n, (n, config) ∈ pending ∧ n.same name = true ∧ (∀ d ∈ pending, d = (n, config) ∨ d ∈ rest.1) ∧
      ∀ d ∈ rest.1, d ∈ pending
  | (n, config) :: pending, config', rest, h => by
    rw [takeDefinition] at h
    split at h
    · next same =>
      cases h
      exact ⟨n, List.mem_cons_self, same, fun d hd => (List.mem_cons.mp hd), fun d hd => List.mem_cons_of_mem _ hd⟩
    · obtain ⟨⟨found, others, hlt⟩, ht, heq⟩ := Option.map_eq_some_iff.mp h
      cases heq
      obtain ⟨n', hm, same, left, back⟩ := takeDefinition_some ht
      refine ⟨n', List.mem_cons_of_mem _ hm, same, fun d hd => ?_, fun d hd => ?_⟩
      · rcases List.mem_cons.mp hd with rfl | hd
        · exact .inr List.mem_cons_self
        · exact (left d hd).imp_right (List.mem_cons_of_mem _)
      · rcases List.mem_cons.mp hd with rfl | hd
        · exact List.mem_cons_self
        · exact List.mem_cons_of_mem _ (back d hd)

theorem takeDefinition_none {name : Value} : ∀ {pending : List Definition}, takeDefinition name pending = none →
    ∀ d ∈ pending, d.1.same name = false
  | (n, config) :: pending, h, d, hd => by
    rw [takeDefinition] at h
    split at h
    · cases h
    · next different =>
      rcases List.mem_cons.mp hd with rfl | hd
      · simpa using different
      · exact takeDefinition_none (Option.map_eq_none_iff.mp h) d hd

section Many
variable {h : Host}

mutual

theorem build_keeps (hc : ∀ config, Keeps P (create h config) P) (names visiting : List Value)
    (pending : List Definition) (created : List (Value × Schema)) (name : Value) :
    Every P created → Keeps P (build h names visiting pending created name) (Every P) := by
  intro hcreated
  rw [build]
  split
  · exact .pure hcreated
  split
  · exact .throw _
  split
  · exact .pure hcreated
  · next config rest hrest heq =>
    refine .bind (.liftExcept fun _ _ => trivial) fun refs _ => ?_
    refine .bind (buildReferences_keeps hc names _ rest created name refs hcreated) fun created hcreated => ?_
    refine .bind (.liftExcept fun _ _ => trivial) fun _ _ => ?_
    exact .bind (hc config) fun s hs => .pure (Every.assign hs hcreated)
termination_by (pending.length, 0)
decreasing_by
  simp only [Prod.lex_def]
  omega

theorem buildReferences_keeps (hc : ∀ config, Keeps P (create h config) P) (names visiting : List Value)
    (pending : List Definition) (created : List (Value × Schema)) (name : Value) (refs : List Value) :
    Every P created → Keeps P (buildReferences h names visiting pending created name refs) (Every P) := by
  intro hcreated
  cases refs with
  | nil =>
    rw [buildReferences]
    exact .pure hcreated
  | cons r rest =>
    rw [buildReferences]
    refine .bind (.liftExcept fun _ _ => trivial) fun _ _ => ?_
    split
    · exact .bind (build_keeps hc names visiting pending created r hcreated) fun created hcreated =>
        buildReferences_keeps hc names visiting pending created name rest hcreated
    · refine .bind .get fun f _ => ?_
      split
      · exact buildReferences_keeps hc names visiting pending created name rest hcreated
      · exact .throw _
termination_by (pending.length, refs.length + 1)

end

theorem buildAll_keeps (hc : ∀ config, Keeps P (create h config) P) (all : List Definition) :
    ∀ (names : List Value) (created : List (Value × Schema)), Every P created →
      Keeps P (buildAll h all names created) (Every P)
  | [], _ => .pure
  | _ :: rest, _ => fun hcreated =>
    .bind (build_keeps hc _ _ _ _ _ hcreated) fun created hcreated => buildAll_keeps hc all rest created hcreated

/-- Every schema of a created set has what each created schema has. -/
theorem createMany_keeps (hc : ∀ config, Keeps P (create h config) P) (configs : List Value) :
    Keeps P (createMany h configs) (Every P) := by
  refine .bind (Q := fun _ => True) (.liftExcept fun _ _ => trivial) fun all _ => ?_
  refine .bind (buildAll_keeps hc all _ _ fun n u hu => by cases hu) fun created hcreated => .pure ?_
  intro n u hu
  obtain ⟨⟨name, config⟩, -, hu⟩ := List.mem_filterMap.mp hu
  obtain ⟨s, hs, heq⟩ := Option.map_eq_some_iff.mp hu
  cases heq
  obtain ⟨n, hn⟩ := Value.lookup?_mem hs
  exact hcreated n u hn

theorem load_keeps (hc : ∀ config, Keeps P (create h config) P) (config : List (Value × Value)) :
    Keeps P (load h config) (Every P) := by
  unfold load
  split
  · exact createMany_keeps hc _
  · exact .throw _

end Many
end Factory
end Conform
