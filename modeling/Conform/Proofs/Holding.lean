import Conform.Proofs.Reference
import Conform.Proofs.Variants

/-!
Objects and mappings as structures. A plain object and a mapping with the same items give the same value for every
field that is named by a text, so they have the same violations wherever both are read. They part in one place only:
a mapping is always read, while an object that has none of the fields, and is no instance of the class of the schema,
is taken for something else altogether and refused as a whole.
-/

namespace Conform

namespace Value

/-- The entries of a mapping that has items under texts. -/
def entriesOf (items : List (String × Value)) : List (Value × Value) := items.map fun a => (.text a.1, a.2)

section Texts
variable {name : Value} {n : String}

theorem asInt?_of_asText? (h : name.asText? = some n) : name.asInt? = none := by
  cases name with
  | text s => rfl
  | member e m payload => cases payload <;> simp_all [asText?, asInt?]
  | _ => simp [asText?] at h

theorem requireKey_of_asText? (h : name.asText? = some n) : name.requireKey = .ok () := by
  cases name with
  | text s => rfl
  | member e m payload => rfl
  | _ => simp [asText?] at h

theorem lookup?_entriesOf (h : name.asText? = some n) : ∀ items : List (String × Value),
    lookup? name (entriesOf items) = items.lookup n
  | [] => rfl
  | (k, v) :: rest => by
    have ih := lookup?_entriesOf h rest
    rw [entriesOf] at ih ⊢
    rw [List.map_cons, lookup?, same_text_left, h, ih, List.lookup_cons]
    by_cases hk : n = k
    · simp [hk]
    · have other : (n == k) = false := by simpa using hk
      simp [other]

end Texts

theorem lookup_eq_some {items : List (String × Value)} (distinct : (items.map Prod.fst).Nodup) {n : String} {v : Value} :
    items.lookup n = some v ↔ (n, v) ∈ items := by
  induction items with
  | nil => simp
  | cons a rest ih =>
    obtain ⟨new, distinct⟩ := List.nodup_cons.mp distinct
    have elsewhere : ∀ w, (a.1, w) ∉ rest := fun w hw => new (List.mem_map.mpr ⟨(a.1, w), hw, rfl⟩)
    rw [List.lookup_cons, List.mem_cons]
    by_cases ha : n = a.1
    · subst ha
      simp [elsewhere, Prod.ext_iff, eq_comm]
    · have other : (n == a.1) = false := by simpa using ha
      simp [other, ha, ih distinct, Prod.ext_iff]

/-- Items under different names are found in whatever order they stand. -/
theorem lookup_of_perm {xs ys : List (String × Value)} (perm : xs.Perm ys) (distinct : (ys.map Prod.fst).Nodup)
    (n : String) : xs.lookup n = ys.lookup n := by
  refine Option.ext fun v => ?_
  rw [lookup_eq_some distinct, lookup_eq_some ((perm.map Prod.fst).nodup_iff.mpr distinct), perm.mem_iff]

theorem isSome_lookup {items : List (String × Value)} (distinct : (items.map Prod.fst).Nodup) {n : String} :
    (items.lookup n).isSome = true ↔ ∃ a ∈ items, n = a.1 := by
  rw [Option.isSome_iff_exists]
  constructor
  · rintro ⟨v, found⟩
    exact ⟨(n, v), (lookup_eq_some distinct).mp found, rfl⟩
  · rintro ⟨a, ha, rfl⟩
    exact ⟨a.2, (lookup_eq_some distinct).mpr ha⟩

/-- A plain object and a mapping that have the same items: the one as its attributes, whether they are its own or those
of its class, and the other under texts, in any order. -/
inductive SameItems (items : List (String × Value)) : Value → Value → Prop where
  | mk {c : DeclaredClass} {serial : Nat} {own inherited : List (String × Value)} {kind : MappingKind}
      (same : (own ++ inherited).Perm items) (distinct : (items.map Prod.fst).Nodup) :
      SameItems items (object c serial own inherited) (mapping kind (entriesOf items))

namespace SameItems
variable {items : List (String × Value)} {o d name : Value} {s : Schema}

theorem present (alike : SameItems items o d) : ¬o.isAbsent = true ∧ ¬d.isAbsent = true := by
  cases alike
  exact ⟨by simp [isAbsent], by simp [isAbsent]⟩

theorem attribute? (alike : SameItems items o d) (n : String) : o.attribute? n = items.lookup n := by
  obtain ⟨same, distinct⟩ := alike
  rw [← lookup_of_perm same distinct n, List.lookup_append, Value.attribute?]
  cases List.lookup n _ <;> rfl

/-- A field that is named by a text has one value, in the object and in the mapping. -/
theorem field (alike : SameItems items o d) {n : String} (text : name.asText? = some n) :
    o.field name = .ok ((items.lookup n).getD .absent) ∧ d.field name = .ok ((items.lookup n).getD .absent) := by
  have held := alike.attribute? n
  obtain ⟨same, distinct⟩ := alike
  constructor
  · simp only [Value.field, asInt?_of_asText? text, text, held]
  · simp only [Value.field, requireKey_of_asText? text, lookup?_entriesOf text]
    rfl

theorem field_missing (alike : SameItems items o d) {n : String} (text : name.asText? = some n)
    (missing : ∀ a ∈ items, name.asText? ≠ some a.1) : o.field name = .ok .absent ∧ d.field name = .ok .absent := by
  have fields := alike.field text
  obtain ⟨-, distinct⟩ := alike
  have nothing : items.lookup n = none := by
    rw [← Option.not_isSome_iff_eq_none, isSome_lookup distinct]
    rintro ⟨a, ha, rfl⟩
    exact missing a ha text
  rwa [nothing] at fields

/-- The object has some of the fields when one of the items is named like a field. -/
theorem hasSomeField (alike : SameItems items o d) : ∀ {fields : List (Value × Node)},
    (∀ f ∈ fields, f.1.asText?.isSome = true) →
      ∃ has, o.hasSomeField fields = .ok has ∧
        (has = true ↔ ∃ f ∈ fields, ∃ a ∈ items, f.1.asText? = some a.1)
  | [], _ => ⟨false, rfl, by simp⟩
  | (name, node) :: rest, texts => by
    obtain ⟨n, text⟩ := Option.isSome_iff_exists.mp (texts _ List.mem_cons_self)
    obtain ⟨has, later, iff⟩ := hasSomeField alike fun f hf => texts f (List.mem_cons_of_mem _ hf)
    have first : o.hasField name = .ok (items.lookup n).isSome := by
      simp only [hasField, asInt?_of_asText? text, text, alike.attribute?]
    have here : (items.lookup n).isSome = true ↔ ∃ a ∈ items, name.asText? = some a.1 := by
      obtain ⟨-, distinct⟩ := alike
      rw [isSome_lookup distinct, text]
      simp
    rw [Value.hasSomeField, first, List.exists_mem_cons_iff, ← here, ← iff]
    cases (items.lookup n).isSome with
    | true => exact ⟨true, rfl, by simp⟩
    | false => exact ⟨has, later, by simp⟩

theorem canHold_mapping (alike : SameItems items o d) : d.canHold s = .ok true := by
  cases alike
  simp [canHold, isMapping, pure, Except.pure]

theorem canHold_object (alike : SameItems items o d) (some_field : s.fields ≠ []) :
    o.canHold s = (o.isTargetInstance s.targetType).bind fun of_class =>
      if of_class then .ok true else o.hasSomeField s.fields := by
  have nonempty : s.fields.isEmpty = false := by simpa using some_field
  cases alike
  simp only [canHold, nonempty, isMapping, Bool.or_self, bind, Except.bind]
  rfl

end SameItems

end Value

/-! ### Reading the fields -/

namespace Schema

/-- Whether a field of a schema is named among items. -/
def AsksFor (s : Schema) (items : List (String × Value)) : Prop :=
  ∃ f ∈ s.fields, ∃ a ∈ items, f.1.asText? = some a.1

/-- The violations of a value that has no field of a schema: one for each field that is not optional. -/
def unfilled (s : Schema) : List Violation :=
  (s.fields.filter fun f => f.2.kind != .optional).map fun f => Violation.required.under [.field f.1]

end Schema

theorem walk_plain_nested {h : Host} {target : Target} {s : Schema} {v : Value} (hv : ¬v.isAbsent = true)
    (found : h.targetSchema? target = some s) (unchecked : s.checks = []) (hold : v.canHold s = .ok true) :
    walk h (.nested [] target) v = walkBranches h (Schema.fieldBranches v s.fields 0) := by
  rw [walk_nested hv found hold, Schema.walk, Schema.survey_present hv, unchecked]
  simp [Survey.walk, Survey.gather, BoundRule.violationsAll]

/-- A field that is optional and missing contributes nothing. -/
theorem visitFields_missing {h : Host} {v name : Value} (hv : ¬v.isAbsent = true) {before after : List (Value × Node)}
    {rules : List BoundRule} {inner keys : Option Node} (missing : v.field name = .ok .absent) (r : Recorder) :
    visitFields h v hv (before ++ (name, .wrapper .optional rules inner keys) :: after) r
      = visitFields h v hv (before ++ after) r := by
  have agrees (fields : List (Value × Node)) :
      visitFields h v hv fields r = (walkBranches h (Schema.fieldBranches v fields 0)).map r.adopt :=
    visitFields_eq hv (fun _ node _ x _ => visit_eq_walk h node x) 0 r
  have nothing : walk h (.wrapper .optional rules inner keys) .absent = .ok [] := walk_of_absent rfl
  rw [agrees, agrees, walkBranches_fields, walkBranches_fields, List.map_append, List.map_cons, List.map_append,
    inTurn_append, inTurn_append, inTurn, missing]
  simp [Except.bind, nothing, inward, Except.map]

/-- A value whose fields are all missing has the violations of a value without fields. -/
theorem walkBranches_unfilled {h : Host} {v : Value} : ∀ {fields : List (Value × Node)} (position : Nat),
    (∀ f ∈ fields, f.1.asInt? = none ∧ v.field f.1 = .ok .absent) →
      walkBranches h (Schema.fieldBranches v fields position)
        = .ok ((fields.filter fun f => f.2.kind != .optional).map fun f => Violation.required.under [.field f.1])
  | [], _, _ => rfl
  | (name, node) :: rest, position, missing => by
    have later := walkBranches_unfilled (h := h) position fun f hf => missing f (List.mem_cons_of_mem _ hf)
    obtain ⟨named, absent⟩ := missing (name, node) List.mem_cons_self
    have segment : FieldSpec.segmentOf name = .field name := by simp only [FieldSpec.segmentOf, named]
    rw [walkBranches_fields] at later ⊢
    rw [List.map_cons, inTurn, later, absent, segment]
    change andThen (inward _ (walk h node .absent)) _ = _
    rw [walk_of_absent rfl]
    rcases node with _ | (_ | _ | _) | _ | _ <;> rfl

/-! ### Objects and mappings -/

namespace Value.SameItems
variable {h : Host} {target : Target} {s : Schema} {items : List (String × Value)} {o d : Value}

/-- An object that can hold the fields has the violations of the mapping. -/
theorem walk_held (alike : SameItems items o d) (found : h.targetSchema? target = some s) (unchecked : s.checks = [])
    (texts : ∀ f ∈ s.fields, f.1.asText?.isSome = true) (hold : o.canHold s = .ok true) :
    walk h (.nested [] target) o = walk h (.nested [] target) d := by
  obtain ⟨ho, hd⟩ := alike.present
  rw [walk_plain_nested ho found unchecked hold, walk_plain_nested hd found unchecked alike.canHold_mapping,
    walkBranches_fields, walkBranches_fields]
  refine congrArg inTurn (List.map_congr_left fun f hf => ?_)
  obtain ⟨n, text⟩ := Option.isSome_iff_exists.mp (texts f hf)
  obtain ⟨onObject, inMapping⟩ := alike.field text
  rw [onObject, inMapping]

/-- A mapping is read field by field even when it has none of the fields. -/
theorem walk_unfilled (alike : SameItems items o d) (found : h.targetSchema? target = some s) (unchecked : s.checks = [])
    (texts : ∀ f ∈ s.fields, f.1.asText?.isSome = true) (none_named : ¬s.AsksFor items) :
    walk h (.nested [] target) d = .ok s.unfilled := by
  rw [walk_plain_nested alike.present.2 found unchecked alike.canHold_mapping]
  refine walkBranches_unfilled 0 fun f hf => ?_
  obtain ⟨n, text⟩ := Option.isSome_iff_exists.mp (texts f hf)
  exact ⟨asInt?_of_asText? text,
    (alike.field_missing text fun a ha named => none_named ⟨f, hf, a, ha, named⟩).2⟩

theorem walk_refused (alike : SameItems items o d) (found : h.targetSchema? target = some s)
    (refused : o.canHold s = .ok false) : walk h (.nested [] target) o = .ok [.wrongType s.name o] := by
  rw [walk_eq, Node.survey_present alike.present.1]
  simp only [Node.surveyPresent, Survey.structured, Host.requireSchema_eq_ok.mpr found, refused]
  rfl

end Value.SameItems

abbrev Schema.remark : Schema :=
  .mk 0 (.text "Remark") [(.text "note", .wrapper .optional [] (some (.scalar [] (.cls (.builtin .str) []))) none)] []
    .absent .absent

abbrev Value.blank : Value := .object ⟨7, "Blank", "Blank", [], none⟩ 1 [] []

/-- An object that has none of the fields is refused, though the empty mapping has nothing wrong. -/
theorem blank_object_refused :
    (Node.validate (.nested [] (.schema .remark)) .bare .blank).map (fun r => r.violations.map Violation.kind)
        = .ok ["type"] ∧
      (Node.validate (.nested [] (.schema .remark)) .bare (.dict [])).map (fun r => r.violations.map Violation.kind)
        = .ok [] := by
  have alike : Value.SameItems [] .blank (.dict []) := .mk .nil .nil
  have texts : ∀ f ∈ Schema.remark.fields, f.1.asText?.isSome = true := by simp [Schema.fields, Value.asText?]
  have found : Host.bare.targetSchema? (.schema .remark) = some .remark := rfl
  have refused := alike.walk_refused found rfl
  have unfilled := alike.walk_unfilled found rfl texts (by simp [Schema.AsksFor])
  rw [Node.validate_eq_walk, Node.validate_eq_walk, refused, unfilled]
  exact ⟨rfl, rfl⟩

/-- Objects and mappings with the same items are read the same way, wherever they stand, by the fields of a schema
that are named by texts: whenever the object can hold the fields, because there are none, because one of them is named
among its attributes or because it is an instance of the class of the schema, both have the same violations. An object
that has none of the fields is refused by one violation, while the mapping is missing each field that is not optional;
and a class that cannot tell its instances is asked for objects only. What is optional and missing from both
contributes nothing to either. -/
theorem object_read_as_mapping {h : Host} {target : Target} {s : Schema} {items : List (String × Value)} {o d : Value}
    (found : h.targetSchema? target = some s) (unchecked : s.checks = [])
    (texts : ∀ f ∈ s.fields, f.1.asText?.isSome = true) (alike : Value.SameItems items o d) :
    (s.fields = [] ∨ o.isTargetInstance s.targetType = .ok true
        ∨ (o.isTargetInstance s.targetType = .ok false ∧ s.AsksFor items) →
      (∀ r, visit h (.nested [] target) o r = visit h (.nested [] target) d r) ∧
      (Node.validate (.nested [] target) h o).map Report.violations
        = (Node.validate (.nested [] target) h d).map Report.violations) ∧
    (s.fields ≠ [] → o.isTargetInstance s.targetType = .ok false → ¬s.AsksFor items →
      ∀ r, visit h (.nested [] target) o r = .ok (r.adopt [.wrongType s.name o]) ∧
        visit h (.nested [] target) d r = .ok (r.adopt s.unfilled)) ∧
    (∀ f, s.fields ≠ [] → o.isTargetInstance s.targetType = .error f →
      ∀ r, visit h (.nested [] target) o r = .error f) ∧
    ∀ before after name rules inner keys, s.fields = before ++ (name, .wrapper .optional rules inner keys) :: after →
      (∀ a ∈ items, name.asText? ≠ some a.1) → ∀ v ∈ [o, d], ∀ (hv : ¬v.isAbsent = true) (r : Recorder),
        visitFields h v hv s.fields r = visitFields h v hv (before ++ after) r := by
  obtain ⟨has, some_field, named⟩ := alike.hasSomeField texts
  refine ⟨fun holds => ?_, fun fields other none_named r => ?_, fun f fields asked r => ?_, ?_⟩
  · have hold : o.canHold s = .ok true := by
      by_cases fields : s.fields = []
      · simp [Value.canHold, fields, pure, Except.pure]
      · rw [alike.canHold_object fields]
        rcases holds with none | of_class | ⟨other, asks⟩
        · exact absurd none fields
        · rw [of_class]
          rfl
        · rw [other, some_field, named.mpr asks]
          rfl
    have walks := alike.walk_held found unchecked texts hold
    constructor
    · intro r
      rw [visit_eq_walk, visit_eq_walk, walks]
    · rw [Node.validate_eq_walk, Node.validate_eq_walk, walks]
      cases walk h (.nested [] target) d <;> rfl
  · have refused : o.canHold s = .ok false := by
      rw [alike.canHold_object fields, other, some_field, Bool.eq_false_iff.mpr (mt named.mp none_named)]
      rfl
    rw [visit_eq_walk, visit_eq_walk, alike.walk_refused found refused,
      alike.walk_unfilled found unchecked texts none_named]
    exact ⟨rfl, rfl⟩
  · have unknown : o.canHold s = .error f := by
      rw [alike.canHold_object fields, asked]
      rfl
    rw [visit_eq_walk, walk_eq, Node.survey_present alike.present.1]
    simp only [Node.surveyPresent, Survey.structured, Host.requireSchema_eq_ok.mpr found, unknown]
    rfl
  · intro before after name rules inner keys fields missing v hv present r
    have optional : (name, Node.wrapper .optional rules inner keys) ∈ s.fields := by simp [fields]
    obtain ⟨n, text⟩ := Option.isSome_iff_exists.mp (texts _ optional)
    obtain ⟨fromObject, fromMapping⟩ := alike.field_missing text missing
    rw [fields]
    rcases List.mem_cons.mp hv with rfl | hv
    · exact visitFields_missing present fromObject r
    · cases List.mem_singleton.mp hv
      exact visitFields_missing present fromMapping r

/-- A point whose second coordinate may be left out. -/
abbrev Schema.point : Schema :=
  .mk 0 (.text "Point") [(.text "x", .scalar [] (.cls (.builtin .int) [])),
    (.text "y", .wrapper .optional [] (some (.scalar [] (.cls (.builtin .int) []))) none)] [] .absent .absent

/-- An object and a mapping of the first coordinate are read the same way as a point. -/
theorem object_read_as_mapping_of_point :
    let o : Value := .object ⟨7, "Sample", "Sample", [], none⟩ 1 [("x", .text "far")] []
    let d : Value := .dict [(.text "x", .text "far")]
    Value.SameItems [("x", .text "far")] o d ∧
      ∀ r, visit .bare (.nested [] (.schema .point)) o r = visit .bare (.nested [] (.schema .point)) d r := by
  have alike : Value.SameItems [("x", .text "far")]
      (.object ⟨7, "Sample", "Sample", [], none⟩ 1 [("x", .text "far")] []) (.dict [(.text "x", .text "far")]) :=
    .mk (.refl _) (by decide)
  have texts : ∀ f ∈ Schema.point.fields, f.1.asText?.isSome = true := by simp [Schema.fields, Value.asText?]
  have asks : Schema.point.AsksFor [("x", .text "far")] := ⟨_, List.mem_cons_self, _, List.mem_cons_self, rfl⟩
  have found : Host.bare.targetSchema? (.schema .point) = some .point := rfl
  exact ⟨alike, ((object_read_as_mapping found rfl texts alike).1 (.inr (.inr ⟨rfl, asks⟩))).1⟩

end Conform
