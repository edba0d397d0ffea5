import Conform.Proofs.Declared
import Conform.Proofs.Levels
import Conform.Proofs.Requests
import Conform.Validation

/-!
The ways to validate an instance against each other. A declared class carries the schema that was made of it, and its
instances are validated by it whether it is asked for, found from the instance, reached through a shape for the class,
or run by the instance itself. Two walks that were written apart lie behind this: the one that goes by the classes in a
value, and the one that goes by a compiled node. They take the same steps wherever the node is made of the layers
that the value is nested in.
-/

namespace Conform

/-! ### Shapes in layers -/

/-- A shape inside wrappers without rules, the outermost first. -/
def Shape.wrapped (s : Shape) : List Wrapper → Shape
  | [] => s
  | w :: layers => .wrapper w (some (s.wrapped layers)) none []

def Node.wrapped (n : Node) : List Wrapper → Node
  | [] => n
  | w :: layers => .wrapper w [] (some (n.wrapped layers)) none

theorem Workshop.compile_wrapped {w : Workshop} {site : Site} {s : Shape} {n : Node} (hn : w.compile site s = .ok n) :
    ∀ layers, w.compile site (s.wrapped layers) = .ok (n.wrapped layers)
  | [] => hn
  | layer :: layers => by
    have ih := compile_wrapped hn layers
    cases layer <;>
    · rw [Shape.wrapped, Shape.wrapper, compile]
      dsimp only [Wrapper.kind]
      rw [compileInner, compileKeys, ih]
      rfl

/-! ### Values in layers -/

/-- A value in which lists and tuples, and mappings, are nested as some layers say, down to leaves. -/
inductive Nest (leaf : Value → Prop) : List Wrapper → Value → Prop
  | leaf {v : Value} (hv : leaf v) : Nest leaf [] v
  | list {items : List Value} {layers : List Wrapper} (below : ∀ x ∈ items, Nest leaf layers x) :
    Nest leaf (.sequence :: layers) (.list items)
  | tuple {items : List Value} {layers : List Wrapper} (below : ∀ x ∈ items, Nest leaf layers x) :
    Nest leaf (.sequence :: layers) (.tuple items)
  | mapping {kind : MappingKind} {entries : List (Value × Value)} {layers : List Wrapper}
    (below : ∀ e ∈ entries, Nest leaf layers e.2) : Nest leaf (.mapping :: layers) (.mapping kind entries)

section Walks
variable {h : Host} {n : Node}

theorem collectOwnItems_eq_visitItems : ∀ {items : List Value},
    (∀ x ∈ items, ∀ r, collectOwn h x r = visit h n x r) →
      ∀ position r, collectOwnItems h items position r = visitItems h n items position r
  | [], _, position, r => by rw [collectOwnItems, visitItems]
  | x :: rest, same, position, r => by
    have first : r.inside (.index position) (collectOwn h x) = r.inside (.index position) (visit h n x) :=
      congrArg _ (funext (same x List.mem_cons_self))
    have later := collectOwnItems_eq_visitItems fun y hy => same y (List.mem_cons_of_mem _ hy)
    rw [collectOwnItems, visitItems, first]
    cases r.inside (.index position) (visit h n x) with
    | error f => rfl
    | ok r => exact later (position + 1) r

theorem visitInner_none (v : Value) (r : Recorder) : visitInner h none v r = .ok r := by rw [visitInner.eq_def]

theorem visitInner_some (v : Value) (r : Recorder) : visitInner h (some n) v r = visit h n v r := by
  rw [visitInner.eq_def]

theorem collectOwnEntries_eq_visitEntries : ∀ {entries : List (Value × Value)},
    (∀ e ∈ entries, ∀ r, collectOwn h e.2 r = visit h n e.2 r) →
      ∀ r, collectOwnEntries h entries r = visitEntries h none (some n) entries r
  | [], _, r => by rw [collectOwnEntries, visitEntries]
  | (k, x) :: rest, same, r => by
    have first : r.inside (.key k) (collectOwn h x) = r.inside (.key k) (visit h n x) :=
      congrArg _ (funext (same (k, x) List.mem_cons_self))
    have later := collectOwnEntries_eq_visitEntries fun e he => same e (List.mem_cons_of_mem _ he)
    rw [collectOwnEntries, visitEntries, first]
    simp only [visitInner_none, visitInner_some]
    cases r.inside (.key k) (visit h n x) with
    | error f => rfl
    | ok r => exact later r

theorem visit_sequence {kind : SequenceKind} {items : List Value} (r : Recorder) :
    visit h (.wrapper .sequence [] (some n) none) (.sequence kind items) r = visitItems h n items 0 r := by
  unfold visit
  rw [dif_neg (by simp [Value.isAbsent])]
  rfl

theorem visit_mapping {kind : MappingKind} {entries : List (Value × Value)} (r : Recorder) :
    visit h (.wrapper .mapping [] (some n) none) (.mapping kind entries) r
      = visitEntries h none (some n) entries r := by
  unfold visit
  rw [dif_neg (by simp [Value.isAbsent])]
  rfl

/-- Walks that take the same steps at the leaves take the same steps at whatever they are nested in. -/
theorem Nest.collectOwn_eq_visit {leaf : Value → Prop} {layers : List Wrapper} {x : Value} (nest : Nest leaf layers x)
    (leaves : ∀ v, leaf v → ∀ r, collectOwn h v r = visit h n v r) :
    ∀ r, collectOwn h x r = visit h (n.wrapped layers) x r := by
  induction nest with
  | leaf hv => exact leaves _ hv
  | list below ih =>
    intro r
    rw [collectOwn, Node.wrapped, visit_sequence]
    exact collectOwnItems_eq_visitItems ih 0 r
  | tuple below ih =>
    intro r
    rw [collectOwn, Node.wrapped, visit_sequence]
    exact collectOwnItems_eq_visitItems ih 0 r
  | mapping below ih =>
    intro r
    rw [collectOwn, Node.wrapped, visit_mapping]
    exact collectOwnEntries_eq_visitEntries ih r

end Walks

/-! ### Described classes -/

theorem ClassModel.schema_targetType {h : Host} {t : FunctionTable} {scope : String → Option Hint} {serial : Nat}
    {m : ClassModel} {o : SchemaOptions} {S : Schema} (hs : m.schema h t scope serial o = .ok S) :
    S.targetType = m.toValue := by
  obtain ⟨hints, b, checks, -, hb, -, rfl⟩ := schema_cases hs
  -- Fields leave the class of the builder as it is.
  refine foldlM_invariant (P := fun b => b.targetType = m.toValue) ?_ rfl hb
  intro b hb f _ b' hb'
  obtain ⟨-, _, _, n, -, rfl⟩ := SchemaBuilder.field_cases hb'
  exact hb

theorem ClassModel.serial_declare {serial : Nat} {d : ClassDeclaration} {m : ClassModel}
    (hm : ClassModel.declare serial d = .ok m) : m.ref.serial = serial := by
  unfold declare at hm
  dsimp only at hm
  split at hm
  · cases hm
    rfl
  · obtain ⟨own, -, hm⟩ := Except.bind_eq_ok.mp hm
    obtain ⟨_, -, hm⟩ := Except.bind_eq_ok.mp hm
    cases hm
    rfl

namespace Session

/-- A class was declared with a schema, which was made of it. -/
structure Describes (s : Session) (m : ClassModel) (S : Schema) : Prop where
  declared : s.classes.lookup m.ref.serial = some (m, some S)
  made : ∃ h t scope serial o, m.schema h t scope serial o = .ok S

/-- Every class is kept under a number that was given out. -/
def ClassesNumbered (s : Session) : Prop := ∀ c ∈ s.classes, c.1 < s.nextSerial

/-- A session leads to another by declarations of classes. -/
inductive Declares (s : Session) : Session → Prop
  | refl : Declares s s
  | declare {middle after : Session} {h : Host} {scope : String → Option Hint} {d : ClassDeclaration}
    {described : Option (Nat × SchemaOptions)} {v : Value} (before : Declares s middle)
    (made : (Action.declareClass h scope d described).runWith middle = (.ok v, after)) : Declares s after

end Session

namespace Action
variable {h : Host} {scope : String → Option Hint} {d : ClassDeclaration} {described : Option (Nat × SchemaOptions)}
  {s s' : Session} {v : Value}

theorem runWith_bind_ok {α β : Type} {x : Action α} {g : α → Action β} {b : β} {s s' : Session}
    (made : (x >>= g).runWith s = (.ok b, s')) :
    ∃ a middle, x.runWith s = (.ok a, middle) ∧ (g a).runWith middle = (.ok b, s') := by
  rw [runWith_bind] at made
  split at made
  next a middle hx => exact ⟨a, middle, hx, made⟩
  · cases made

/-- A declaration adds one class, under a new number, with the schema that was made of it if one was asked for. -/
theorem declareClass_ok (made : (declareClass h scope d described).runWith s = (.ok v, s')) :
    ∃ m schema, v = m.toValue ∧ m.ref.serial = s.nextSerial ∧ s'.classes = (s.nextSerial, m, schema) :: s.classes ∧
      s.nextSerial < s'.nextSerial ∧ schema.isSome = described.isSome ∧
      ∀ S ∈ schema, ∃ h t scope serial o, m.schema h t scope serial o = .ok S := by
  unfold declareClass at made
  obtain ⟨serial, s₁, numbered, made⟩ := runWith_bind_ok made
  obtain ⟨m, s₂, declared, made⟩ := runWith_bind_ok made
  cases numbered
  rw [runWith_lift] at declared
  obtain ⟨hm, rfl⟩ := Prod.mk.inj declared
  cases described with
  | none =>
    cases made
    exact ⟨m, none, rfl, ClassModel.serial_declare hm, rfl, Nat.lt_succ_self _, rfl, by simp⟩
  | some described =>
    obtain ⟨s₃, s₄, got, made⟩ := runWith_bind_ok made
    obtain ⟨serial', s₅, numbered, made⟩ := runWith_bind_ok made
    obtain ⟨S, s₆, described, made⟩ := runWith_bind_ok made
    cases got
    cases numbered
    rw [runWith_lift] at described
    obtain ⟨hS, rfl⟩ := Prod.mk.inj described
    cases made
    -- One number goes to the class, and one to its schema.
    have later : s.nextSerial < s.nextSerial + 1 + 1 := by omega
    refine ⟨m, some S, rfl, ClassModel.serial_declare hm, rfl, later, rfl, ?_⟩
    rintro _ ⟨⟩
    exact ⟨_, _, _, _, _, hS⟩

/-- Decorating a class gives a class that is described from then on. -/
theorem declareClass_describes {table : Nat} {o : SchemaOptions}
    (made : (declareClass h scope d (some (table, o))).runWith s = (.ok v, s')) :
    ∃ m S, v = m.toValue ∧ s'.Describes m S := by
  obtain ⟨m, schema, rfl, serial, classes, -, described, built⟩ := declareClass_ok made
  obtain ⟨S, rfl⟩ := Option.isSome_iff_exists.mp described
  refine ⟨m, S, rfl, ?_, built S rfl⟩
  rw [classes, serial, List.lookup_cons_self]

end Action

namespace Session
variable {s s' : Session} {m : ClassModel} {S : Schema} {d : DeclaredClass}

theorem Describes.declareClass {h : Host} {scope : String → Option Hint} {declaration : ClassDeclaration}
    {described : Option (Nat × SchemaOptions)} {v : Value} (describes : s.Describes m S) (numbered : s.ClassesNumbered)
    (made : (Action.declareClass h scope declaration described).runWith s = (.ok v, s')) :
    s'.Describes m S ∧ s'.ClassesNumbered := by
  obtain ⟨m', schema, -, -, classes, later, -, -⟩ := Action.declareClass_ok made
  obtain ⟨before, after, split, -⟩ := List.lookup_eq_some_iff.mp describes.declared
  have old : m.ref.serial < s.nextSerial := numbered _ (split ▸ List.mem_append_right _ List.mem_cons_self)
  refine ⟨⟨?_, describes.made⟩, fun c hc => ?_⟩
  · rw [classes, List.lookup_cons, beq_false_of_ne (Nat.ne_of_lt old)]
    exact describes.declared
  · rw [classes] at hc
    rcases List.mem_cons.mp hc with rfl | hc
    · exact later
    · exact Nat.lt_trans (numbered c hc) later

/-- What a class is described by is the same after whatever declarations. -/
theorem Describes.lasting (describes : s.Describes m S) (numbered : s.ClassesNumbered) (declares : s.Declares s') :
    s'.Describes m S := by
  suffices kept : s'.Describes m S ∧ s'.ClassesNumbered from kept.1
  induction declares with
  | refl => exact ⟨describes, numbered⟩
  | declare _ made ih => exact ih.1.declareClass ih.2 made

theorem Describes.classSchema (describes : s.Describes m S) : s.classSchema? m.ref = some S := by
  rw [classSchema?, List.findSome?_cons, describes.declared]
  rfl

/-- Whether the instances of a class validate themselves as those of a described class do: that class has no method of
the name, of its own or from above, nor has any class that is nearer. -/
def InheritsValidate (s : Session) (d : DeclaredClass) (m : ClassModel) : Prop :=
  m.attribute? "validate" = none ∧ ∃ nearer further, d.serial :: d.ancestors = nearer ++ m.ref.serial :: further ∧
    ∀ n ∈ nearer, ∀ m' schema, s.classes.lookup n = some (m', schema) → m'.attributes.lookup "validate" = none

theorem Describes.validateMethod? (describes : s.Describes m S) (inherits : s.InheritsValidate d m) :
    s.validateMethod? d = some .engine := by
  obtain ⟨free, nearer, further, lineage, silent⟩ := inherits
  have own : m.attributes.lookup "validate" = none := by
    unfold ClassModel.attribute? ClassModel.firstAttribute? at free
    split at free
    · cases free
    · assumption
  rw [Session.validateMethod?, lineage, List.findSome?_append, List.findSome?_cons, describes.declared]
  simp only [Option.bind_some, own, free, Option.isSome_some, Option.isNone_none, Bool.and_true, if_true]
  -- A class that is nearer has no attribute of the name, so it says nothing, or the same.
  cases found : List.findSome? _ nearer with
  | none => rfl
  | some method =>
    obtain ⟨n, hn, said⟩ := List.exists_of_findSome?_eq_some found
    obtain ⟨⟨m', schema⟩, hm', said⟩ := Option.bind_eq_some_iff.mp said
    rw [silent n hn m' schema hm'] at said
    dsimp only at said
    split at said
    · cases said
      rfl
    · cases said

end Session

/-! ### Ways to validate an instance -/

def DeclaredClass.Below (d c : DeclaredClass) : Prop := d.serial = c.serial ∨ c.serial ∈ d.ancestors

section Instances
variable {s : Session} {h : Host} {m : ClassModel} {S : Schema} {d : DeclaredClass} {n : Nat}
  {own inherited : List (String × Value)}

theorem Value.canHold_of_below {c : DeclaredClass} {attributes : List (String × Value)}
    (target : S.targetType = .cls (.declared c) attributes) (below : d.Below c) :
    (Value.object d n own inherited).canHold S = .ok true := by
  have isInstance : (Value.object d n own inherited).isInstance? (.declared c) = some true := by
    simpa [Value.isInstance?, DeclaredClass.Below] using below
  have ofTarget : (Value.object d n own inherited).isTargetInstance (.cls (.declared c) attributes) = .ok true := by
    simp [isTargetInstance, isInstance]
  rw [canHold, target, ofTarget]
  split <;> rfl

theorem collectOwn_object (carries : h.classSchema d = some S) (r : Recorder) :
    collectOwn h (.object d n own inherited) r
      = S.collect h (.object d n own inherited) (by simp [Value.isAbsent]) r := by
  unfold collectOwn
  rw [dif_neg (by simp [Value.isAbsent])]
  simp only [Host.schemaOf?, carries]

theorem visit_described (described : h.classSchema m.ref = some S)
    (holds : (Value.object d n own inherited).canHold S = .ok true) (r : Recorder) :
    visit h (.nested [] (.value m.toValue)) (.object d n own inherited) r
      = S.collect h (.object d n own inherited) (by simp [Value.isAbsent]) r := by
  have required : h.requireSchema (.value m.toValue) = .ok S := by
    simp [Host.requireSchema, Host.targetSchema?, ClassModel.toValue, Host.schemaOf?, described]
  unfold visit
  rw [dif_neg (by simp [Value.isAbsent])]
  simp only [required, holds]
  rfl

theorem validate_own (carries : h.classSchema d = some S) :
    validate h (.object d n own inherited) .own = S.validate h (.object d n own inherited) := by
  rw [validate, collectOwn_object carries, Schema.validate, dif_neg]

theorem validate_class (described : h.classSchema m.ref = some S) (v : Value) :
    validate h v (.value m.toValue) = S.validate h v := by
  simp [validate, ClassModel.toValue, Value.isClass, Host.schemaOf?, described]

theorem validate_shape {shape : Shape} {node : Node} (v : Value)
    (compiled : ∀ w : Workshop, w.host = h → ∀ site, w.compile site shape = .ok node) :
    validate h v (.shape shape) = node.validate h v := by
  have made : SchemaBuilder.compileShape { name := .text "value" } h .default (.shape shape) = .ok node :=
    compiled _ rfl _
  rw [validate, made]
  rfl

theorem Workshop.compile_described {w : Workshop} (described : w.host.classSchema m.ref = some S) (site : Site)
    (layers : List Wrapper) :
    w.compile site ((Shape.nested (.value m.toValue) []).wrapped layers)
      = .ok ((Node.nested [] (.value m.toValue)).wrapped layers) := by
  refine compile_wrapped (compile_bare_nested ?_) layers
  simp [checkTarget, ClassModel.toValue, Host.schemaOf?, described]

theorem validate_wrapped (described : h.classSchema m.ref = some S) (layers : List Wrapper) (x : Value) :
    validate h x (.shape ((Shape.nested (.value m.toValue) []).wrapped layers))
      = ((Node.nested [] (.value m.toValue)).wrapped layers).validate h x := by
  have compiled (w : Workshop) (hw : w.host = h) (site : Site) :=
    Workshop.compile_described (w := w) (hw ▸ described) site layers
  exact validate_shape x compiled

end Instances

/-- An instance whose class carries a schema, and that can hold the fields of it. -/
def Session.Holder (s : Session) (S : Schema) : Value → Prop
  | .object d n own inherited =>
    s.classSchema? d = some S ∧ (Value.object d n own inherited).canHold S = .ok true
  | _ => False

/-- The ways to validate agree. An instance whose class carries the schema of a described class is validated by it,
whether by the value alone, with the class, or with the schema. A shape for the class does the same for an instance that
can hold the fields, as those of the class and of the classes below it can; and so does the method of the instance when
it is that of the engine, as it is when nothing nearer is in its place. Whatever such instances are nested in, the value
alone and the shape in the same layers report the same. -/
theorem Session.entry_points_agree {s : Session} {h : Host} {m : ClassModel} {S : Schema}
    (classes : h.classSchema = s.classSchema?) (describes : s.Describes m S) :
    (∀ d n own inherited, s.classSchema? d = some S →
      (∀ target ∈ [.own, .value m.toValue, .schema S],
        validate h (.object d n own inherited) target = S.validate h (.object d n own inherited)) ∧
      ((Value.object d n own inherited).canHold S = .ok true →
        validate h (.object d n own inherited) (.shape (.nested (.value m.toValue) []))
          = S.validate h (.object d n own inherited)) ∧
      (d.Below m.ref → (Value.object d n own inherited).canHold S = .ok true) ∧
      (own.lookup "validate" = none → s.validateMethod? d = some .engine →
        validateMethod h s.validateMethod? (.object d n own inherited) []
          = (S.validate h (.object d n own inherited)).map .report) ∧
      (s.InheritsValidate d m → s.validateMethod? d = some .engine)) ∧
    ∀ layers x, Nest (s.Holder S) layers x →
      validate h x .own = validate h x (.shape ((Shape.nested (.value m.toValue) []).wrapped layers)) := by
  have described : h.classSchema m.ref = some S := (congrFun classes _).trans describes.classSchema
  obtain ⟨_, _, _, _, _, made⟩ := describes.made
  have target : S.targetType = m.toValue := ClassModel.schema_targetType made
  refine ⟨fun d n own inherited carries => ?_, fun layers x nest => ?_⟩
  · have carries : h.classSchema d = some S := (congrFun classes _).trans carries
    refine ⟨fun entry he => ?_, fun holds => ?_, Value.canHold_of_below target, fun free engine => ?_,
      describes.validateMethod?⟩
    · simp only [List.mem_cons, List.not_mem_nil, or_false] at he
      rcases he with rfl | rfl | rfl
      · exact validate_own carries
      · exact validate_class described _
      · rfl
    · rw [← validate_own carries]
      refine (validate_wrapped described [] _).trans ?_
      rw [Node.wrapped, Node.validate, visit_described described holds, validate, collectOwn_object carries]
    · simp only [validateMethod, free, engine]
      change (validate h _ .own).map Outcome.report = _
      rw [validate_own carries]
  · -- At the leaves both walks run the schema, one by the class of the leaf and one by the class in the shape.
    have leaves (v : Value) (hv : s.Holder S v) (r : Recorder) :
        collectOwn h v r = visit h (.nested [] (.value m.toValue)) v r := by
      cases v with
      | object d n own inherited =>
        obtain ⟨carries, holds⟩ := hv
        rw [collectOwn_object ((congrFun classes _).trans carries), visit_described described holds]
      | _ => exact hv.elim
    rw [validate_wrapped described, Node.validate, validate, nest.collectOwn_eq_visit leaves]

/-! ### Instances apart -/

namespace Session

/-- A class whose instances have a number of at most three. -/
abbrev gaugeClass : ClassModel where
  ref := ⟨2, "Gauge", "Gauge", [], none⟩
  doc := none
  hints := [("x", .annotated (.cls (.builtin .int) []) [{ rules := [⟨"max", .int 3⟩] }])]
  attributes := []
  dataFields := none
  ancestors := []

abbrev gaugeFields : List (Value × Node) :=
  [(.text "x", .scalar [⟨(FunctionTable.default.find? "max").getD default, .int 3⟩] (.cls (.builtin .int) []))]

abbrev gaugeSchema : Schema := .mk 3 (.text "Gauge") gaugeFields [] gaugeClass.toValue .absent

/-- A class below it that adds nothing. -/
abbrev fineClass : ClassModel where
  ref := ⟨4, "Fine", "Fine", [2], none⟩
  doc := none
  hints := []
  attributes := []
  dataFields := none
  ancestors := [gaugeClass]

/-- A class below it with a method of its own. -/
abbrev terseClass : ClassModel where
  ref := ⟨5, "Terse", "Terse", [2], none⟩
  doc := none
  hints := []
  attributes := [("validate", .value (.cls (.builtin .list) []))]
  dataFields := none
  ancestors := [gaugeClass]

/-- A class further below that is given a schema, and has the method from above. -/
abbrev dialClass : ClassModel where
  ref := ⟨6, "Dial", "Dial", [5, 2], none⟩
  doc := none
  hints := []
  attributes := []
  dataFields := none
  ancestors := [terseClass, gaugeClass]

abbrev dialSchema : Schema := .mk 7 (.text "Dial") gaugeFields [] dialClass.toValue .absent

/-- A class apart from them that keeps the first schema among its attributes. -/
abbrev likenessClass : ClassModel where
  ref := ⟨8, "Likeness", "Likeness", [], none⟩
  doc := none
  hints := []
  attributes := [("__validation_schema__", .value gaugeSchema.toObject)]
  dataFields := none
  ancestors := []

abbrev gauges : Session :=
  { Session.start with
    classes := [(8, likenessClass, none), (6, dialClass, some dialSchema), (5, terseClass, none),
      (4, fineClass, none), (2, gaugeClass, some gaugeSchema)]
    schemas := [(7, dialSchema), (3, gaugeSchema)]
    nextSerial := 9 }

/-- The program around the gauges: their classes, and classes that can be called. -/
abbrev gaugeHost : Host :=
  { Host.bare with
    classSchema := gauges.classSchema?
    construct := fun c attributes args => (gauges.construct .bare c attributes args).map .value }

abbrev reading (m : ClassModel) (own : List (String × Value)) : Value := .object m.ref 9 own m.classAttributes

theorem gaugeSchema_describes : gauges.Describes gaugeClass gaugeSchema :=
  ⟨rfl, .bare, .default, fun _ => none, 3, {}, rfl⟩

theorem dialSchema_describes : gauges.Describes dialClass dialSchema :=
  ⟨rfl, .bare, .default, fun _ => none, 7, {}, rfl⟩

def kinds (found : Except Fault Report) : Except Fault (List String) :=
  found.map fun report => report.violations.map Violation.kind

theorem kinds_five (h : Host) (serial : Nat) (name target : Value) (d : DeclaredClass) (n : Nat)
    (own inherited : List (String × Value)) :
    kinds ((Schema.mk serial name gaugeFields [] target .absent).validate h
      (.object d n (("x", .int 5) :: own) inherited)) = .ok ["max"] := by
  rw [Schema.validate, dif_neg (by simp [Value.isAbsent]), Schema.collect]
  simp only [visitFields, Schema.fields, visit]
  rfl

/-- The ways to validate differ where a class carries a schema that is for another, and where an instance has a method
of its own, from a class that is nearer, or from above the class. -/
theorem entry_points_apart :
    (gauges.Describes gaugeClass gaugeSchema ∧ gauges.classSchema? likenessClass.ref = some gaugeSchema ∧
      kinds (validate gaugeHost (reading likenessClass []) .own) = .ok ["required"] ∧
      kinds (validate gaugeHost (reading likenessClass []) (.shape (.nested (.value gaugeClass.toValue) [])))
        = .ok ["type"]) ∧
    (gaugeClass.attribute? "validate" = none ∧ gauges.classSchema? terseClass.ref = some gaugeSchema ∧
      gauges.Describes dialClass dialSchema ∧ dialClass.attributes.lookup "validate" = none ∧
      ∀ v ∈ [reading terseClass [("x", .int 5)], reading dialClass [("x", .int 5)],
          reading gaugeClass [("x", .int 5), ("validate", .cls (.builtin .list) [])]],
        kinds (validate gaugeHost v .own) = .ok ["max"] ∧
          validateMethod gaugeHost gauges.validateMethod? v [] = .ok (.value (.list []))) := by
  have described : gaugeHost.classSchema gaugeClass.ref = some gaugeSchema := rfl
  have carried : gaugeHost.classSchema likenessClass.ref = some gaugeSchema := rfl
  refine ⟨⟨gaugeSchema_describes, rfl, ?_, ?_⟩, rfl, rfl, dialSchema_describes, rfl, fun v hv => ?_⟩
  · rw [validate_own carried, Schema.validate, dif_neg (by simp [Value.isAbsent]), Schema.collect]
    simp only [visitFields, Schema.fields, visit]
    rfl
  · refine (congrArg kinds (validate_wrapped described [] _)).trans ?_
    rw [Node.wrapped, Node.validate]
    unfold visit
    rfl
  · simp only [List.mem_cons, List.not_mem_nil, or_false] at hv
    rcases hv with rfl | rfl | rfl
    · exact ⟨by rw [validate_own (S := gaugeSchema) rfl]; exact kinds_five .., rfl⟩
    · exact ⟨by rw [validate_own (S := dialSchema) rfl]; exact kinds_five .., rfl⟩
    · exact ⟨by rw [validate_own (S := gaugeSchema) rfl]; exact kinds_five .., rfl⟩

abbrev fineReading : Value := reading fineClass [("x", .int 5)]

abbrev fineReadings : Value :=
  .list [.dict [(.text "first", fineReading), (.text "second", reading gaugeClass [])], .dict []]

theorem entry_points_agree_of_fine :
    gaugeHost.classSchema = gauges.classSchema? ∧ gauges.Describes gaugeClass gaugeSchema ∧
      gauges.classSchema? fineClass.ref = some gaugeSchema ∧ fineClass.ref.Below gaugeClass.ref ∧
      gauges.InheritsValidate fineClass.ref gaugeClass ∧
      Nest (gauges.Holder gaugeSchema) [.sequence, .mapping] fineReadings ∧
      kinds (gaugeSchema.validate gaugeHost fineReading) = .ok ["max"] ∧
      (∀ target ∈ [.own, .value gaugeClass.toValue, .schema gaugeSchema],
        validate gaugeHost fineReading target = gaugeSchema.validate gaugeHost fineReading) ∧
      validate gaugeHost fineReading (.shape (.nested (.value gaugeClass.toValue) []))
        = gaugeSchema.validate gaugeHost fineReading ∧
      validateMethod gaugeHost gauges.validateMethod? fineReading []
        = (gaugeSchema.validate gaugeHost fineReading).map .report ∧
      validate gaugeHost fineReadings .own = validate gaugeHost fineReadings
        (.shape ((Shape.nested (.value gaugeClass.toValue) []).wrapped [.sequence, .mapping])) := by
  have below : fineClass.ref.Below gaugeClass.ref := .inr List.mem_cons_self
  have inherits : gauges.InheritsValidate fineClass.ref gaugeClass := by
    refine ⟨rfl, [4], [], rfl, fun n hn m' schema hm' => ?_⟩
    cases List.mem_singleton.mp hn
    cases hm'
    rfl
  have nest : Nest (gauges.Holder gaugeSchema) [.sequence, .mapping] fineReadings := by
    refine .list fun x hx => ?_
    simp only [List.mem_cons, List.not_mem_nil, or_false] at hx
    rcases hx with rfl | rfl
    · refine .mapping fun e he => ?_
      simp only [List.mem_cons, List.not_mem_nil, or_false] at he
      rcases he with rfl | rfl
      · exact .leaf ⟨rfl, rfl⟩
      · exact .leaf ⟨rfl, rfl⟩
    · refine .mapping fun e he => ?_
      cases he
  obtain ⟨instances, nests⟩ := entry_points_agree (h := gaugeHost) rfl gaugeSchema_describes
  obtain ⟨direct, shaped, holds, own, engine⟩ := instances fineClass.ref 9 [("x", .int 5)] fineClass.classAttributes rfl
  exact ⟨rfl, gaugeSchema_describes, rfl, below, inherits, nest, kinds_five .., direct, shaped (holds below),
    own rfl (engine inherits), nests _ _ nest⟩

end Session

end Conform
