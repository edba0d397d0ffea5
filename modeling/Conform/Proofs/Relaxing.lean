import Conform.Proofs.Landing
import Conform.Proofs.Reference
import Conform.Proofs.Seeking
import Conform.Proofs.Variants

/-!
Fields that become optional. When the shape of a field is put inside an optional one, the rules of the field sink through
it, as long as none of them applies to optional values, and the node that was compiled before stands inside the new one.
So the field is accepted as before, and reports of every present value what it reported before; of the absent value it
reports nothing (`Node.Relaxes`). A configured field that is marked as optional is declared in this way, unless its shape
is optional already.
-/

namespace Conform

/-- The shape as one of a value that may be absent. -/
abbrev Shape.optional (s : Shape) : Shape := .wrapper .optional (some s) none []

/-- The node as one of a value that may be absent. -/
abbrev Node.optional (n : Node) : Node := .wrapper .optional [] (some n) none

/-- Rules that a table does not apply to optional values. -/
def FunctionTable.Sinks (t : FunctionTable) (rules : List Rule) : Prop :=
  ∀ rule ∈ rules, ∀ f, t.find? rule.name = some f → f.appliesTo.contains .optional = false

/-- A node that lets the absent value pass without asking any rule, and finds in every other value what another node
finds. -/
structure Node.Relaxes (relaxed strict : Node) : Prop where
  present : ∀ h v, ¬v.isAbsent = true → walk h relaxed v = walk h strict v
  absent : ∀ h v, v.isAbsent = true → relaxed.survey h v = .ok {}

/-- The outcomes of declaring a field as it is and as an optional one: both are refused, or both are accepted, with nodes
of which the one relaxes the other. -/
inductive SchemaBuilder.Relaxes (b : SchemaBuilder) (name : Value) :
    Except Fault SchemaBuilder → Except Fault SchemaBuilder → Prop where
  | accepted {relaxed strict : Node} (nodes : relaxed.Relaxes strict) :
      SchemaBuilder.Relaxes b name (.ok { b with fields := b.fields ++ [(name, relaxed)] })
        (.ok { b with fields := b.fields ++ [(name, strict)] })
  | refused {f g : Fault} : SchemaBuilder.Relaxes b name (.error f) (.error g)

/-! ### Nodes -/

namespace Node
variable {relaxed strict n : Node} {h : Host} {v : Value}

theorem optional_relaxes (n : Node) : n.optional.Relaxes n where
  present _ _ present := (walk_optional present).trans (andThen_ok_nil _)
  absent _ _ absent := survey_absent absent

/-- A node that is optional already is relaxed. -/
theorem relaxes_self (optional : n.kind = .optional) : n.Relaxes n where
  present _ _ _ := rfl
  absent _ _ absent := by
    rw [survey_absent absent]
    rcases n with _ | (_ | _ | _) | _ | _ <;> first | rfl | cases optional

theorem Relaxes.walk_absent (nodes : relaxed.Relaxes strict) (absent : v.isAbsent = true) : walk h relaxed v = .ok [] := by
  rw [walk_eq, nodes.absent h v absent]
  rfl

theorem Relaxes.branch_present (nodes : relaxed.Relaxes strict) {name : Value} {i : Nat} (present : v.field name ≠ .ok .absent) :
    walkBranch h ⟨[FieldSpec.segmentOf name], .field i, relaxed, v.field name⟩
      = walkBranch h ⟨[FieldSpec.segmentOf name], .field i, strict, v.field name⟩ := by
  unfold walkBranch
  rcases found : v.field name with f | x
  · rfl
  · have given : ¬x.isAbsent = true := fun absent => by
      cases x <;> first | exact present found | cases absent
    exact congrArg (inward _) (nodes.present h x given)

theorem Relaxes.branch_absent (nodes : relaxed.Relaxes strict) {name : Value} {i : Nat} (absent : v.field name = .ok .absent) :
    walkBranch h ⟨[FieldSpec.segmentOf name], .field i, relaxed, v.field name⟩ = .ok [] := by
  unfold walkBranch
  rw [absent]
  exact congrArg (inward _) (nodes.walk_absent rfl)

end Node

/-- The branches of fields with one more are those of the fields, and its own. -/
theorem Schema.fieldBranches_concat (v name : Value) (node : Node) (fields : List (Value × Node)) :
    fieldBranches v (fields ++ [(name, node)]) 0
      = fieldBranches v fields 0 ++ [⟨[FieldSpec.segmentOf name], .field fields.length, node, v.field name⟩] := by
  simp [fieldBranches, List.zipIdx_append]

namespace SchemaBuilder
variable {b : SchemaBuilder} {h : Host} {t : FunctionTable} {v name : Value} {relaxed strict : Node} {serial : Nat}

/-- A schema with one more field finds what it found, and what is found along the way to the field. -/
theorem walk_concat (node : Node) (present : ¬v.isAbsent = true) :
    (({ b with fields := b.fields ++ [(name, node)] } : SchemaBuilder).build serial).walk h v
      = Survey.gather { checks := b.checks } h v (andThen (walkBranches h (Schema.fieldBranches v b.fields 0))
          (walkBranch h ⟨[FieldSpec.segmentOf name], .field b.fields.length, node, v.field name⟩)) := by
  rw [Schema.walk, Schema.survey_present present, Survey.walk, build, Schema.fields, Schema.fieldBranches_concat,
    walkBranches_append, walkBranches_cons, walkBranches_nil, andThen_nil]
  rfl

/-- Where there is something in the field, the schemas with the one node and with the other report the same. -/
theorem validate_relaxed (nodes : relaxed.Relaxes strict) (given : v.field name ≠ .ok .absent) :
    (({ b with fields := b.fields ++ [(name, relaxed)] } : SchemaBuilder).build serial).validate h v
      = (({ b with fields := b.fields ++ [(name, strict)] } : SchemaBuilder).build serial).validate h v := by
  by_cases absent : v.isAbsent = true
  · rw [Schema.validate, Schema.validate, dif_pos absent, dif_pos absent]
  · rw [Schema.validate_eq_walk, Schema.validate_eq_walk, walk_concat relaxed absent, walk_concat strict absent,
      nodes.branch_present given]

/-- Where there is nothing in the field, the schema with the node that relaxes reports what it reports without the
field. -/
theorem validate_silent (nodes : relaxed.Relaxes strict) (absent : v.field name = .ok .absent) :
    (({ b with fields := b.fields ++ [(name, relaxed)] } : SchemaBuilder).build serial).validate h v
      = (b.build serial).validate h v := by
  by_cases none : v.isAbsent = true
  · rw [Schema.validate, Schema.validate, dif_pos none, dif_pos none]
  · rw [Schema.validate_eq_walk, Schema.validate_eq_walk, walk_concat relaxed none, nodes.branch_absent absent, andThen_nil,
      Schema.walk, Schema.survey_present none]
    rfl

/-! ### Placing and compiling -/

section Declaring
variable {w : Workshop} {site : Site} {rule : Rule} {rules : List Rule} {s : Shape}

/-- A rule that does not apply to optional values is placed in an optional shape where it is placed in the shape inside. -/
theorem placeRule_optional (sinks : ∀ f, w.table.find? rule.name = some f → f.appliesTo.contains .optional = false)
    {p : Shape} : placeRule site w s.optional rule = .ok p ↔
      ∃ placed, p = placed.optional ∧ placeRule site w s rule = .ok placed := by
  simp only [placeRule_eq_ok]
  constructor
  · rintro ⟨f, found, ⟨takes⟩ | ⟨_, _, placed⟩⟩
    · cases takes.symm.trans (sinks f found)
    · exact ⟨_, rfl, f, found, placed⟩
  · rintro ⟨s', rfl, f, found, placed⟩
    exact ⟨f, found, .inside (Bool.eq_false_iff.mp (sinks f found)) rfl placed⟩

theorem placeAll_optional : ∀ {rules : List Rule} {s p : Shape}, w.table.Sinks rules →
    (rules.foldlM (placeRule site w) s.optional = .ok p ↔
      ∃ placed, p = placed.optional ∧ rules.foldlM (placeRule site w) s = .ok placed)
  | [], s, p, _ => by
    constructor
    · intro h
      cases h
      exact ⟨s, rfl, rfl⟩
    · rintro ⟨placed, rfl, h⟩
      cases h
      rfl
  | rule :: rules, s, p, sinks => by
    obtain ⟨own, sinks⟩ := List.forall_mem_cons.mp sinks
    simp only [List.foldlM_cons, Except.bind_eq_ok, placeRule_optional own]
    constructor
    · rintro ⟨_, ⟨s', rfl, hs'⟩, later⟩
      obtain ⟨placed, rfl, rest⟩ := (placeAll_optional sinks).mp later
      exact ⟨placed, rfl, s', hs', rest⟩
    · rintro ⟨placed, rfl, s', hs', rest⟩
      exact ⟨_, ⟨s', rfl, hs'⟩, (placeAll_optional sinks).mpr ⟨placed, rfl, rest⟩⟩

/-- An optional shape without rules of its own is compiled to the node of the shape inside, made optional. -/
theorem compile_optional {m : Node} : w.compile site s.optional = .ok m ↔
    ∃ n, m = n.optional ∧ w.compile site s = .ok n := by
  have compiled : w.compile site s.optional = (w.compile site s).map Node.optional := by
    rw [Shape.optional, Shape.wrapper, Workshop.compile, Workshop.bindRules]
    change (w.compileInner site (some s) >>= fun i => w.compileKeys site none >>= fun k => Except.ok _) = _
    rw [Workshop.compileInner, Workshop.compileKeys]
    cases w.compile site s <;> rfl
  rw [compiled, Except.map_eq_ok]
  constructor
  · rintro ⟨n, hn, rfl⟩
    exact ⟨n, rfl, hn⟩
  · rintro ⟨n, rfl, hn⟩
    exact ⟨n, hn, rfl⟩

theorem fieldNode_optional (sinks : t.Sinks rules) {m : Node} : b.fieldNode h t site s.optional rules = .ok m ↔
    ∃ n, m = n.optional ∧ b.fieldNode h t site s rules = .ok n := by
  have sinks : (b.workshop h t).table.Sinks rules := sinks
  simp only [fieldNode, Except.bind_eq_ok, placeAll_optional sinks]
  constructor
  · rintro ⟨_, ⟨placed, rfl, hp⟩, compiled⟩
    obtain ⟨n, rfl, hn⟩ := compile_optional.mp compiled
    exact ⟨n, rfl, placed, hp, hn⟩
  · rintro ⟨n, rfl, placed, hp, hn⟩
    exact ⟨_, ⟨placed, rfl, hp⟩, compile_optional.mpr ⟨n, rfl, hn⟩⟩

theorem compile_kind {n : Node} (h : w.compile site s = .ok n) : n.kind = s.kind := by
  obtain ⟨kind, rules, type, inner, keys, target, cases, tag⟩ := s
  obtain ⟨bound, -, ⟨rfl, -, rfl⟩ | ⟨wr, rfl, i, k, -, -, rfl⟩ | ⟨rfl, -, rfl⟩ | ⟨rfl, all, done, -, -, -, rfl⟩⟩ :=
    Workshop.compile_cases h <;> rfl

/-- The node of a field is of the kind of its shape. -/
theorem fieldNode_kind {n : Node} (hn : b.fieldNode h t site s rules = .ok n) : n.kind = s.kind := by
  obtain ⟨placed, hplaced, compiled⟩ := Except.bind_eq_ok.mp hn
  obtain ⟨placed', more, here, -, grown⟩ := (placeAll_keeps hplaced).2 (rfl : s.at? [] = some s)
  cases here
  exact (compile_kind compiled).trans grown.kind

end Declaring

/-! ### Declaring -/

variable {spelling : ShapeSpelling} {s : Shape} {spellings : List RuleSpelling} {named : List (String × Value)}

/-- A field is accepted as optional when it is accepted as it is, and its node relaxes the other. -/
theorem field_relaxes {rules : List Rule} (shaped : Shape.ofSpelling spelling = .ok s)
    (spelled : Rule.ofSpellings spellings named = .ok rules) (sinks : t.Sinks rules) :
    b.Relaxes name (b.field h t name (.shape s.optional) spellings named) (b.field h t name spelling spellings named) := by
  rw [field_eq, field_eq, shaped, spelled]
  split
  · exact .refused
  change b.Relaxes name (Except.map _ (b.fieldNode h t _ s.optional rules)) (Except.map _ (b.fieldNode h t _ s rules))
  rcases strict : b.fieldNode h t _ s rules with f | n
  · rcases relaxed : b.fieldNode h t _ s.optional rules with g | m
    · exact .refused
    · obtain ⟨n, -, hn⟩ := (fieldNode_optional sinks).mp relaxed
      cases strict.symm.trans hn
  · rw [(fieldNode_optional sinks).mpr ⟨n, rfl, strict⟩]
    exact .accepted n.optional_relaxes

/-- A field whose shape is optional has a node that is relaxed already. -/
theorem field_relaxes_self (optional : s.kind = .optional) :
    b.Relaxes name (b.field h t name (.shape s) spellings named) (b.field h t name (.shape s) spellings named) := by
  rw [field_eq]
  split
  · exact .refused
  change b.Relaxes name (malformed _ (Rule.ofSpellings spellings named) >>= fun rules => Except.map _ (b.fieldNode h t _ s rules))
    (malformed _ (Rule.ofSpellings spellings named) >>= fun rules => Except.map _ (b.fieldNode h t _ s rules))
  rcases malformed _ (Rule.ofSpellings spellings named) with f | rules
  · exact .refused
  change b.Relaxes name (Except.map _ (b.fieldNode h t _ s rules)) (Except.map _ (b.fieldNode h t _ s rules))
  rcases hn : b.fieldNode h t _ s rules with f | n
  · exact .refused
  · exact .accepted (n.relaxes_self ((fieldNode_kind hn).trans optional))

end SchemaBuilder

/-! ### Configured fields -/

namespace Value

/-- What stands under a key does not depend on entries under other keys. -/
theorem lookup?_filter_ne {α : Type} {key other : String} (apart : key ≠ other) : ∀ entries : List (Value × α),
    lookup? (.text key) (entries.filter fun e => !e.1.same (.text other)) = lookup? (.text key) entries
  | [] => rfl
  | (k, a) :: rest => by
    have ih := lookup?_filter_ne apart rest
    rw [List.filter_cons]
    by_cases named : k.same (.text other) = true
    · have differs : ¬k.same (.text key) = true := by
        rw [same_text_right, beq_iff_eq] at named ⊢
        rw [named, Option.some.injEq]
        exact Ne.symm apart
      rw [if_neg (by simp [named]), ih, lookup?, if_neg differs]
    · rw [if_pos (by simp [named]), lookup?, lookup?, ih]

theorem lookup?_filter_self {α : Type} (key : String) : ∀ entries : List (Value × α),
    lookup? (.text key) (entries.filter fun e => !e.1.same (.text key)) = none
  | [] => rfl
  | (k, a) :: rest => by
    have ih := lookup?_filter_self key rest
    rw [List.filter_cons]
    cases named : k.same (.text key) <;> simp [lookup?, named, ih]

end Value

namespace Configuration

/-- The definition of a field without the mark that makes it optional. -/
def unmarked (entries : List (Value × Value)) : List (Value × Value) :=
  entries.filter fun e => !e.1.same (.text "optional")

theorem setting_unmarked {entries : List (Value × Value)} {name : String} (other : name ≠ "optional") :
    setting (unmarked entries) name = setting entries name := by
  rw [setting, unmarked, Value.lookup?_filter_ne other, setting]

end Configuration

namespace Factory
open Conform.Configuration
variable {h : Host} {t : FunctionTable} {known : KnownSchemas} {b : SchemaBuilder} {entries : List (Value × Value)}
variable {context : Context}

/-- The shape of a field that is marked as optional is the shape that it has without the mark, inside an optional one
unless it is optional itself. -/
theorem fieldShape_marked (marked : (setting entries "optional").truthy = true) :
    fieldShape known context entries = (fieldShape known context (unmarked entries)).map fun s =>
      if isOptional s then s else s.optional := by
  have type_eq : setting (unmarked entries) "type" = setting entries "type" := setting_unmarked (by decide)
  have shape_eq : Value.lookup? (.text "shape") (unmarked entries) = Value.lookup? (.text "shape") entries :=
    Value.lookup?_filter_ne (by decide) entries
  have unmarks : setting (unmarked entries) "optional" = .absent := by
    rw [setting, unmarked, Value.lookup?_filter_self, Option.getD_none]
  unfold fieldShape
  rw [type_eq, shape_eq, unmarks, marked]
  -- Both read the same shape first; then only the one with the mark may wrap it.
  have wraps (s : Shape) : (if (true && !isOptional s) = true then pure s.optional else pure s : Except Fault Shape)
      = .ok (if isOptional s then s else s.optional) := by
    cases isOptional s <;> rfl
  rcases Value.lookup? (.text "shape") entries with _ | config
  · dsimp only
    rcases scalarType context (setting entries "type") with f | type
    · rfl
    · exact wraps (.scalar type [])
  · dsimp only
    rcases shape known context config with f | s
    · rfl
    · exact wraps s

/-- A configured field that is marked as optional is accepted when it is accepted without the mark, and its node relaxes
the other. -/
theorem addField_relaxes {k : MappingKind} (marked : (setting entries "optional").truthy = true)
    (sinks : ∀ context rules, declaredRules context (setting entries "rules") = .ok rules → t.Sinks rules) :
    ∃ name, b.Relaxes name (addField h t known b (.mapping k entries)) (addField h t known b (.mapping k (unmarked entries))) := by
  have name_eq : Value.lookup? (.text "name") (unmarked entries) = Value.lookup? (.text "name") entries :=
    Value.lookup?_filter_ne (by decide) entries
  have rules_eq : setting (unmarked entries) "rules" = setting entries "rules" := setting_unmarked (by decide)
  rcases hn : Value.lookup? (.text "name") entries with _ | name
  · refine ⟨.absent, ?_⟩
    simp only [addField, hn, name_eq]
    exact .refused
  refine ⟨name, ?_⟩
  rw [addField_eq b hn, addField_eq b (name_eq.trans hn), fieldShape_marked marked, rules_eq]
  rcases fieldShape known _ (unmarked entries) with f | s
  · exact .refused
  rcases declared : declaredRules _ (setting entries "rules") with f | rules
  · exact .refused
  change b.Relaxes name (b.field h t name (.shape (if isOptional s then s else s.optional)) (rules.map .rule) [])
    (b.field h t name (.shape s) (rules.map .rule) [])
  cases optional : isOptional s with
  | true => exact SchemaBuilder.field_relaxes_self (beq_iff_eq.mp optional)
  | false => exact SchemaBuilder.field_relaxes rfl (Rule.ofSpellings_rules rules) (sinks _ rules declared)

end Factory

/-- A field whose rules do not apply to optional values is accepted as an optional one when it is accepted as it is. It
then reports of every value that is present what it reports as it is, and of the absent value nothing, without asking any
rule. So does a configured field that is marked as optional, against the same definition without the mark. A schema with
the optional field reports what it reports with the other one of every value that has something in the field, and of all
other values what it reports without the field. -/
theorem optional_changes_absence {b : SchemaBuilder} {h : Host} {t : FunctionTable} :
    (∀ {name : Value} {spelling : ShapeSpelling} {s : Shape} {spellings : List RuleSpelling} {named : List (String × Value)}
        {rules : List Rule}, Shape.ofSpelling spelling = .ok s → Rule.ofSpellings spellings named = .ok rules →
        t.Sinks rules → b.Relaxes name (b.field h t name (.shape s.optional) spellings named)
          (b.field h t name spelling spellings named)) ∧
    (∀ {known : Configuration.KnownSchemas} {k : MappingKind} {entries : List (Value × Value)},
        (Configuration.setting entries "optional").truthy = true →
        (∀ context rules, Configuration.declaredRules context (Configuration.setting entries "rules") = .ok rules →
          t.Sinks rules) →
        ∃ name, b.Relaxes name (Factory.addField h t known b (.mapping k entries))
          (Factory.addField h t known b (.mapping k (Configuration.unmarked entries)))) ∧
    ∀ {name : Value} {relaxed strict : Node}, relaxed.Relaxes strict → ∀ (h : Host) (serial : Nat) (v : Value),
      (v.field name ≠ .ok .absent →
        (({ b with fields := b.fields ++ [(name, relaxed)] } : SchemaBuilder).build serial).validate h v
          = (({ b with fields := b.fields ++ [(name, strict)] } : SchemaBuilder).build serial).validate h v) ∧
      (v.field name = .ok .absent →
        (({ b with fields := b.fields ++ [(name, relaxed)] } : SchemaBuilder).build serial).validate h v
          = (b.build serial).validate h v) :=
  ⟨SchemaBuilder.field_relaxes, Factory.addField_relaxes, fun nodes _ _ _ =>
    ⟨SchemaBuilder.validate_relaxed nodes, SchemaBuilder.validate_silent nodes⟩⟩

/-- The age of a person as it is configured: a whole number that is not negative, or nothing. -/
abbrev Configuration.ageEntries : List (Value × Value) :=
  [(.text "name", .text "age"), (.text "type", .text "int"), (.text "optional", .bool true),
    (.text "rules", .dict [(.text "min", .int 0)])]

/-- An age that must not be negative may be declared or configured as optional. -/
theorem optional_changes_absence_of_age :
    (∃ relaxed strict : Node, relaxed.Relaxes strict ∧
      SchemaBuilder.field { name := .text "Person" } .bare .default (.text "age")
        (.shape (Shape.scalar (.cls (.builtin .int) []) []).optional) [.rule ⟨"min", .int 0⟩] []
        = .ok { name := .text "Person", fields := [(.text "age", relaxed)] } ∧
      SchemaBuilder.field { name := .text "Person" } .bare .default (.text "age")
        (.value (.cls (.builtin .int) [])) [.rule ⟨"min", .int 0⟩] []
        = .ok { name := .text "Person", fields := [(.text "age", strict)] }) ∧
    ∃ name, SchemaBuilder.Relaxes { name := .text "Person" } name
      (Factory.addField .bare .default [] { name := .text "Person" } (.dict Configuration.ageEntries))
      (Factory.addField .bare .default [] { name := .text "Person" } (.dict (Configuration.unmarked Configuration.ageEntries))) := by
  have sinks : FunctionTable.default.Sinks [⟨"min", .int 0⟩] := by
    intro rule hm f hf
    cases List.mem_singleton.mp hm
    cases hf
    rfl
  have marked : Configuration.setting Configuration.ageEntries "optional" = .bool true := by
    simp [Configuration.setting, Value.lookup?]
  have ruled : Configuration.setting Configuration.ageEntries "rules" = .dict [(.text "min", .int 0)] := by
    simp [Configuration.setting, Value.lookup?]
  obtain ⟨declared, configured, -⟩ := @optional_changes_absence { name := .text "Person" } .bare .default
  refine ⟨?_, @configured [] .plain Configuration.ageEntries (by rw [marked]; rfl) fun context rules hr => ?_⟩
  · have shaped : Shape.ofSpelling (.value (.cls (.builtin .int) [])) = .ok (.scalar (.cls (.builtin .int) []) []) := rfl
    have spelled : Rule.ofSpellings [.rule ⟨"min", .int 0⟩] [] = .ok [⟨"min", .int 0⟩] := rfl
    have relaxes := @declared (.text "age") _ _ _ _ _ shaped spelled sinks
    generalize accepted : SchemaBuilder.field _ _ _ _ (.shape _) _ _ = relaxed at relaxes ⊢
    generalize SchemaBuilder.field _ _ _ _ (.value _) _ _ = strict at relaxes ⊢
    cases relaxes with
    | accepted nodes => exact ⟨_, _, nodes, rfl, rfl⟩
    | refused => cases accepted
  · rw [ruled] at hr
    cases hr
    exact sinks

end Conform
