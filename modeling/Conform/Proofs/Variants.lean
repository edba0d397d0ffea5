import Conform.Proofs.Complaints
import Conform.Proofs.Inferring
import Conform.Proofs.Levels

/-!
The cases of a choice by a tag. A compiled choice files the payload of a case under the text that its name reads as,
and looks for what it finds under the tag: a case is selected by a tag that is this text, and of several cases of one
text the last one is. Where the names are texts and no two of them are the same, this is what a choice is meant to do:
there is an entry for each case, in order, a tag that is the name of a case selects its payload, and a tag that is
none of the names is refused, once, after the rules of the choice.
-/

namespace Conform

namespace Value

/-- The case that a tag selects: the last one whose name reads as the text that the tag is. -/
def selects (tag : Value) : List (Value × Payload) → Option (Value × Payload)
  | [] => none
  | e :: rest => (tag.selects rest).or (if tag.asText? = some e.1.str then some e else none)

/-- A value and a text are equal, either way round, when the value is that text. -/
theorem same_text_iff (v : Value) (s : String) :
    (same (.text s) v = true ↔ v.asText? = some s) ∧ (same v (.text s) = true ↔ v.asText? = some s) := by
  cases v with
  | text t => exact ⟨by simpa [asText?] using Eq.comm, by simp [asText?]⟩
  | member e n payload => cases payload <;> simp [same, sameUndefined, eq, scalarEq, magnitude?, asText?] <;> grind
  | _ => simp [same, sameUndefined, eq, scalarEq, magnitude?, asText?]

theorem same_text_left (s : String) (v : Value) : same (.text s) v = (v.asText? == some s) :=
  Bool.eq_iff_iff.mpr ((v.same_text_iff s).1.trans beq_iff_eq.symm)

theorem same_text_right (v : Value) (s : String) : same v (.text s) = (v.asText? == some s) :=
  Bool.eq_iff_iff.mpr ((v.same_text_iff s).2.trans beq_iff_eq.symm)

/-- What stands under a tag after a text was set among texts. -/
theorem lookup?_assign_text {α : Type} {s : String} {a : α} (tag : Value) : ∀ {entries : List (Value × α)},
    (∀ e ∈ entries, ∃ t, e.1 = .text t) →
      lookup? tag (assign (.text s) a entries) = if tag.asText? = some s then some a else lookup? tag entries
  | [], _ => by
    simp [assign, lookup?, same_text_left]
  | (k, b) :: rest, texts => by
    obtain ⟨t, rfl⟩ := texts (k, b) List.mem_cons_self
    have ih := lookup?_assign_text (s := s) (a := a) tag fun e he => texts e (List.mem_cons_of_mem _ he)
    rw [assign, same_text]
    by_cases same : t = s
    · subst same
      by_cases ht : tag.asText? = some t <;> simp [lookup?, same_text_left, ht]
    · rw [if_neg (by simpa using same)]
      simp only [lookup?, same_text_left, ih]
      by_cases ht : tag.asText? = some t <;> simp [ht, same]

theorem selects_eq_none {tag : Value} {cases : List (Value × Payload)} (h : ∀ e ∈ cases, tag.asText? ≠ some e.1.str) :
    tag.selects cases = none := by
  induction cases with
  | nil => rfl
  | cons e rest ih =>
    rw [selects, ih fun e he => h e (List.mem_cons_of_mem _ he), if_neg (h e List.mem_cons_self)]
    rfl

theorem mem_of_selects {tag : Value} {e : Value × Payload} {cases : List (Value × Payload)}
    (h : tag.selects cases = some e) : e ∈ cases ∧ tag.asText? = some e.1.str := by
  induction cases with
  | nil => cases h
  | cons first rest ih =>
    rw [selects, Option.or_eq_some_iff] at h
    rcases h with h | ⟨-, h⟩
    · exact (ih h).imp_left (List.mem_cons_of_mem _)
    · split at h
      · next same =>
        cases h
        exact ⟨List.mem_cons_self, same⟩
      · cases h

/-- Among different texts a tag that is one of them selects its case. -/
theorem selects_of_names {tag : Value} {e : Value × Payload} : ∀ {texts : List String} {cases : List (Value × Payload)},
    cases.map Prod.fst = texts.map Value.text → texts.Nodup → e ∈ cases → e.1.same tag = true →
      tag.selects cases = some e
  | t :: texts, (name, payload) :: rest, names, nodup, he, same => by
    rw [List.map_cons, List.map_cons, List.cons.injEq] at names
    obtain ⟨rfl, names⟩ := names
    obtain ⟨new, nodup⟩ := List.nodup_cons.mp nodup
    rw [selects]
    rcases List.mem_cons.mp he with rfl | he
    · rw [same_text_left, beq_iff_eq] at same
      have later : tag.selects rest = none := by
        refine selects_eq_none fun x hx reads => new ?_
        have hx : x.1 ∈ texts.map Value.text := names ▸ List.mem_map_of_mem hx
        obtain ⟨t', ht', ht⟩ := List.mem_map.mp hx
        rw [← ht, same, Option.some.injEq, str] at reads
        exact reads ▸ ht'
      rw [later, Option.none_or]
      exact if_pos same
    · rw [selects_of_names names nodup he same]
      rfl
  | [], [], _, _, he, _ => absurd he List.not_mem_nil
  | [], _ :: _, names, _, _, _ => by cases names
  | _ :: _, [], names, _, _, _ => by cases names

end Value

namespace Workshop
variable {w : Workshop} {site : Site}

theorem compileCases_ok_iff {cases : List (Value × Payload)} {done : List (Value × Option Node)} :
    (∃ nodes, w.compileCases site cases done = .ok nodes) ↔
      ∀ e ∈ cases, ∃ node, w.compilePayload { site with variant := some e.1 } e.2 = .ok node := by
  induction cases generalizing done with
  | nil => simp [compileCases]
  | cons e rest ih =>
    rw [compileCases]
    cases first : w.compilePayload { site with variant := some e.1 } e.2 with
    | error f => simp [first, bind, Except.bind]
    | ok node => simpa [first, bind, Except.bind] using ih

/-- What is filed under a tag: what was compiled for the case that the tag selects. -/
theorem compileCases_lookup (tag : Value) : ∀ {cases : List (Value × Payload)} {done nodes : List (Value × Option Node)},
    w.compileCases site cases done = .ok nodes → (∀ e ∈ done, ∃ t, e.1 = .text t) →
      match tag.selects cases with
      | some e => ∃ node, w.compilePayload { site with variant := some e.1 } e.2 = .ok node ∧
          Value.lookup? tag nodes = some node
      | none => Value.lookup? tag nodes = Value.lookup? tag done
  | [], done, nodes, h, _ => by
    rw [compileCases] at h
    cases h
    rfl
  | (name, payload) :: rest, done, nodes, h, texts => by
    rw [compileCases] at h
    obtain ⟨node, hnode, h⟩ := Except.bind_eq_ok.mp h
    have later := compileCases_lookup tag h (Value.assign_texts texts)
    rw [Value.selects]
    -- A later case of the same text has taken the place of this one; else this one is still there.
    cases found : tag.selects rest with
    | some e =>
      rw [found] at later
      exact later
    | none =>
      rw [found] at later
      dsimp only at later
      rw [Value.lookup?_assign_text tag texts] at later
      split at later
      · next same =>
        simp only [Option.none_or, if_pos same]
        exact ⟨node, hnode, later⟩
      · next other =>
        simpa [other] using later

/-- The entries of a choice: one for each text that a name reads as. -/
theorem compileCases_texts : ∀ {cases : List (Value × Payload)} {texts : List String}
    {done nodes : List (Value × Option Node)}, w.compileCases site cases done = .ok nodes →
      done.map Prod.fst = texts.map Value.text → texts.Nodup →
        ∃ named : List String, nodes.map Prod.fst = named.map Value.text ∧ named.Nodup ∧
          ∀ s, s ∈ named ↔ s ∈ texts ∨ ∃ e ∈ cases, e.1.str = s
  | [], texts, done, nodes, h, names, nodup => by
    rw [compileCases] at h
    cases h
    exact ⟨texts, names, nodup, by simp⟩
  | (name, payload) :: rest, texts, done, nodes, h, names, nodup => by
    rw [compileCases] at h
    obtain ⟨node, -, h⟩ := Except.bind_eq_ok.mp h
    obtain ⟨assigned, hassigned, apart, first⟩ := Hint.assign_names (n := name.str) (a := node) names nodup
    obtain ⟨named, hnamed, nodup, members⟩ := compileCases_texts h hassigned apart
    refine ⟨named, hnamed, nodup, fun s => ?_⟩
    rw [members, first, List.exists_mem_cons_iff]
    grind

variable {cases : List (Value × Payload)} {tag : Value} {rules : List Rule}

theorem compile_choice {node : Node} (h : w.compile site (.variants cases tag rules) = .ok node) :
    ∃ bound nodes, w.bindRules (.variants cases tag rules) site [] = .ok bound ∧ cases ≠ [] ∧
      w.compileCases site cases [] = .ok nodes ∧ node = .variants bound nodes tag := by
  obtain ⟨bound, hbound, shaped⟩ := compile_cases h
  rcases shaped with ⟨other, -⟩ | ⟨wrapper, other, -⟩ | ⟨other, -⟩ | ⟨-, all, nodes, hall, nonempty, hnodes, rfl⟩
  · cases other
  · cases wrapper <;> cases other
  · cases other
  · cases hall
    exact ⟨bound, nodes, hbound, nonempty, hnodes, rfl⟩

/-- A choice compiles when it has cases, its rules can be bound and every payload compiles. -/
theorem compile_choice_ok_iff : (∃ node, w.compile site (.variants cases tag rules) = .ok node) ↔
    cases ≠ [] ∧ (∃ bound, w.bindRules (.variants cases tag rules) site [] = .ok bound) ∧
      ∀ e ∈ cases, ∃ payload, w.compilePayload { site with variant := some e.1 } e.2 = .ok payload := by
  constructor
  · rintro ⟨node, h⟩
    obtain ⟨bound, nodes, hbound, nonempty, hnodes, -⟩ := compile_choice h
    exact ⟨nonempty, ⟨bound, hbound⟩, compileCases_ok_iff.mp ⟨nodes, hnodes⟩⟩
  · rintro ⟨nonempty, ⟨bound, hbound⟩, each⟩
    obtain ⟨nodes, hnodes⟩ : ∃ nodes, w.compileCases site cases [] = .ok nodes := compileCases_ok_iff.mpr each
    obtain ⟨e, rest, rfl⟩ := List.exists_cons_of_ne_nil nonempty
    refine ⟨.variants bound nodes tag, ?_⟩
    rw [Shape.variants] at hbound ⊢
    rw [compile, hbound]
    change (w.compileCases site (e :: rest) [] >>= fun nodes => Except.ok (Node.variants bound nodes tag)) = _
    rw [hnodes]
    rfl

end Workshop

/-! ### Validating by a tag -/

section Tags
variable {h : Host} {bound : List BoundRule} {nodes : List (Value × Option Node)} {t : String} {v tag : Value}

/-- What the payload of a variant finds in a value. -/
def Node.payloadWalk (h : Host) (name : Value) (payload : Option Node) (v : Value) : Except Fault (List Violation) :=
  match payload with
  | none => .ok []
  | some node => inward [.variant name] (walk h node v)

theorem variantName_of_field (htag : v.field (.text t) = .ok tag) : variantName h (.text t) v = .ok (.value tag) := by
  cases v with
  | mapping kind entries =>
    obtain ⟨u, -, htag⟩ := Except.bind_eq_ok.mp htag
    cases htag
    rfl
  | _ =>
    cases htag
    rfl

theorem selectCase_by_tag (htag : v.field (.text t) = .ok tag) :
    selectCase h (.text t) v nodes = tag.requireKey.map fun _ => (tag, Value.lookup? tag nodes) := by
  rw [selectCase, variantName_of_field htag]
  change (tag.requireKey >>= fun _ => .ok (tag, Value.lookup? tag nodes)) = _
  cases tag.requireKey <;> rfl

theorem Violation.kind_of_wrongVariant {actual problem : String} {e : Violation}
    (he : wrongVariant nodes actual problem = .ok e) : e.kind = "variant" := by
  obtain ⟨shown, -, he⟩ := Except.bind_eq_ok.mp he
  cases he
  rfl

theorem Value.requireKey_of_text {s : String} (text : tag.asText? = some s) : tag.requireKey = .ok () := by
  cases tag <;> first | rfl | cases text

/-- A value is validated by the payload that stands under its tag, after the rules. -/
theorem walk_by_tag {payload : Option Node} (hv : ¬v.isAbsent = true) (htag : v.field (.text t) = .ok tag)
    (key : tag.requireKey = .ok ()) (found : Value.lookup? tag nodes = some payload) :
    walk h (.variants bound nodes (.text t)) v
      = andThen (.ok (BoundRule.violationsAll h bound v)) (Node.payloadWalk h tag payload v) := by
  have selected : selectCase h (.text t) v nodes = .ok (tag, some payload) := by
    rw [selectCase_by_tag htag, key, found]
    rfl
  rw [walk_eq, Node.survey_present hv]
  simp only [Node.surveyPresent, Survey.choice, selected, Survey.walk_of_branches]
  cases payload with
  | none => rfl
  | some node => rw [walkBranches_toward]; rfl

/-- A value whose tag nothing stands under is refused after the rules. -/
theorem walk_by_unknown_tag (bound : List BoundRule) (hv : ¬v.isAbsent = true) (htag : v.field (.text t) = .ok tag)
    (texts : ∀ e ∈ nodes, ∃ s, e.1 = .text s) (unknown : Value.lookup? tag nodes = none) :
    ∃ e : Violation, e.kind = "variant" ∧ e.path = [] ∧
      walk h (.variants bound nodes (.text t)) v = .ok (BoundRule.violationsAll h bound v ++ [e]) := by
  have told (actual problem : String) : ∃ e, Violation.wrongVariant nodes actual problem = .ok e :=
    Violation.wrongVariant_ok actual problem fun name node hm => texts (name, node) hm
  have refused : ∃ actual problem e, Violation.wrongVariant nodes actual problem = .ok e ∧
      (Node.variants bound nodes (.text t)).survey h v = .ok { rules := bound, own := some e } := by
    rw [Node.survey_present hv]
    simp only [Node.surveyPresent, Survey.choice, selectCase_by_tag htag, unknown]
    cases tag.requireKey with
    | error f =>
      obtain ⟨e, he⟩ := told f.kind ("variant could not be determined (" ++ f.kind ++ ": " ++ f.message ++ ")")
      exact ⟨_, _, e, he, congrArg (Except.map _) he⟩
    | ok _ =>
      obtain ⟨e, he⟩ := told tag.str ("unknown variant " ++ tag.repr)
      exact ⟨_, _, e, he, congrArg (Except.map _) he⟩
  obtain ⟨actual, problem, e, he, surveyed⟩ := refused
  refine ⟨e, Violation.kind_of_wrongVariant he, Violation.path_of_wrongVariant he, ?_⟩
  rw [walk_eq, surveyed]
  simp [Survey.walk, Survey.gather, andThen, Except.map, BoundRule.violationsAll]

end Tags

/-- A value that is validated by the payload of a case, as it was declared, after the rules of the choice. -/
def Workshop.Enters (w : Workshop) (site : Site) (h : Host) (node : Node) (tag v : Value) (e : Value × Payload) : Prop :=
  ∃ payload, w.compilePayload { site with variant := some e.1 } e.2 = .ok payload ∧
    node.validate h v = (andThen (.ok (BoundRule.violationsAll h node.rules v)) (Node.payloadWalk h tag payload v)).map (Report.of v)

/-- A value that is refused once for its variant, after the rules of the choice. -/
def Node.Misses (h : Host) (node : Node) (v : Value) : Prop :=
  ∃ e : Violation, e.kind = "variant" ∧ e.path = [] ∧
    node.validate h v = .ok (Report.of v (BoundRule.violationsAll h node.rules v ++ [e]))

/-- A value is validated by the payload of the case that its tag selects, and is refused if there is none. -/
theorem Workshop.validate_selected {w : Workshop} {site : Site} {h : Host} {cases : List (Value × Payload)}
    {nodes : List (Value × Option Node)} {t : String} {v tag : Value} (bound : List BoundRule)
    (hnodes : w.compileCases site cases [] = .ok nodes) (hv : ¬v.isAbsent = true)
    (htag : v.field (.text t) = .ok tag) :
    match tag.selects cases with
    | some e => w.Enters site h (.variants bound nodes (.text t)) tag v e
    | none => (Node.variants bound nodes (.text t)).Misses h v := by
  have texts : ∀ e ∈ nodes, ∃ s, e.1 = .text s := (compileCases_names hnodes nofun).1
  have filed := compileCases_lookup tag hnodes nofun
  cases found : tag.selects cases with
  | some e =>
    rw [found] at filed
    obtain ⟨payload, hpayload, there⟩ := filed
    have key := Value.requireKey_of_text (Value.mem_of_selects found).2
    refine ⟨payload, hpayload, ?_⟩
    rw [Node.validate_eq_walk, walk_by_tag hv htag key there]
    rfl
  | none =>
    rw [found] at filed
    obtain ⟨e, kind, path, walked⟩ := walk_by_unknown_tag (h := h) bound hv htag texts filed
    refine ⟨e, kind, path, ?_⟩
    rw [Node.validate_eq_walk, walked]
    rfl

/-- A choice by a tag compiles when it has cases, its rules can be bound and every payload compiles. Its entries are
the different texts that the names of its cases read as; a value whose tag is one of these texts is validated by the
payload of the last case that reads so, and any other value is refused for its variant. Where the names are texts and
no two are the same, there is an entry for every case in order, and a value is validated by the payload of the case
whose name its tag is. -/
theorem choice_by_tag (w : Workshop) (site : Site) (h : Host) (cases : List (Value × Payload)) (t : String)
    (rules : List Rule) :
    ((∃ node, w.compile site (.variants cases (.text t) rules) = .ok node) ↔
        cases ≠ [] ∧ (∃ bound, w.bindRules (.variants cases (.text t) rules) site [] = .ok bound) ∧
          ∀ e ∈ cases, ∃ payload, w.compilePayload { site with variant := some e.1 } e.2 = .ok payload) ∧
      ∀ node, w.compile site (.variants cases (.text t) rules) = .ok node → ∃ bound nodes,
        node = .variants bound nodes (.text t) ∧
        w.bindRules (.variants cases (.text t) rules) site [] = .ok bound ∧
        (∃ texts : List String, nodes.map Prod.fst = texts.map Value.text ∧ texts.Nodup ∧
          ∀ s, s ∈ texts ↔ ∃ e ∈ cases, e.1.str = s) ∧
        (∀ v tag, ¬v.isAbsent = true → v.field (.text t) = .ok tag → match tag.selects cases with
          | some e => w.Enters site h node tag v e
          | none => node.Misses h v) ∧
        ((∃ texts : List String, cases.map Prod.fst = texts.map Value.text ∧ texts.Nodup) →
          nodes.map Prod.fst = cases.map Prod.fst ∧
          ∀ v tag, ¬v.isAbsent = true → v.field (.text t) = .ok tag →
            (∀ e ∈ cases, e.1.same tag = true → w.Enters site h node tag v e) ∧
            ((∀ e ∈ cases, e.1.same tag = false) → node.Misses h v)) := by
  refine ⟨Workshop.compile_choice_ok_iff, fun node compiled => ?_⟩
  obtain ⟨bound, nodes, hbound, -, hnodes, rfl⟩ := Workshop.compile_choice compiled
  have none_yet : ([] : List (Value × Option Node)).map Prod.fst = ([] : List String).map Value.text := rfl
  obtain ⟨texts, names, nodup, members⟩ := Workshop.compileCases_texts hnodes none_yet .nil
  refine ⟨bound, nodes, rfl, hbound, ⟨texts, names, nodup, by simpa using members⟩,
    fun v tag hv htag => Workshop.validate_selected bound hnodes hv htag, ?_⟩
  rintro ⟨texts, names, nodup⟩
  -- Different texts read as themselves, so that no case takes the place of another.
  obtain ⟨made, rfl, entries, -⟩ := Workshop.compileCases_each names nodup (fun e he => absurd he List.not_mem_nil) hnodes
  refine ⟨entries, fun v tag hv htag => ⟨fun e he same => ?_, fun unknown => ?_⟩⟩
  · have own := Workshop.validate_selected (h := h) bound hnodes hv htag
    rwa [Value.selects_of_names names nodup he same] at own
  · have none : tag.selects cases = none := by
      refine Value.selects_eq_none fun e he reads => ?_
      have he' : e.1 ∈ texts.map Value.text := names ▸ List.mem_map_of_mem he
      obtain ⟨s, -, hs⟩ := List.mem_map.mp he'
      have apart := unknown e he
      rw [← hs, Value.same_text_left, beq_eq_false_iff_ne] at apart
      rw [← hs] at reads
      exact apart reads
    have own := Workshop.validate_selected (h := h) bound hnodes hv htag
    rwa [none] at own

/-- A figure with a radius or without one, by what stands under a key. -/
abbrev figureCases : List (Value × Payload) :=
  [(.text "point", .target (.value .absent)), (.text "circle", .shape (Shape.scalar (.cls (.builtin .int) []) []))]

abbrev figureKind (kind : String) : Value := .dict [(.text "kind", .text kind)]

theorem choice_by_tag_of_figures :
    let w : Workshop := { host := .bare, table := .default, targetType := .absent, resolver := none }
    let site : Site := { schema := .text "figure" }
    ∃ node, w.compile site (.variants figureCases (.text "kind") []) = .ok node ∧
      node.validate .bare (figureKind "point") = .ok (Report.of (figureKind "point") []) ∧
      ∃ e : Violation, e.kind = "variant" ∧ e.path = [] ∧
        node.validate .bare (figureKind "cube") = .ok (Report.of (figureKind "cube") [e]) := by
  intro w site
  obtain ⟨compiles, spec⟩ := choice_by_tag w site .bare figureCases "kind" []
  have payloads : ∀ e ∈ figureCases, ∃ payload, w.compilePayload { site with variant := some e.1 } e.2 = .ok payload := by
    intro e he
    rcases List.mem_pair.mp he with rfl | rfl <;> exact ⟨_, rfl⟩
  obtain ⟨node, hnode⟩ := compiles.mpr ⟨List.cons_ne_nil _ _, ⟨[], rfl⟩, payloads⟩
  obtain ⟨bound, nodes, rfl, hbound, -, -, meant⟩ := spec node hnode
  obtain ⟨-, validated⟩ := meant ⟨["point", "circle"], rfl, by decide⟩
  have present (kind : String) : ¬(figureKind kind).isAbsent = true := Bool.false_ne_true
  have tagged (kind : String) : (figureKind kind).field (.text "kind") = .ok (.text kind) := by
    simp [Value.field, Value.lookup?]
    rfl
  cases hbound
  refine ⟨_, hnode, ?_, ?_⟩
  · obtain ⟨payload, hpayload, entered⟩ := (validated (figureKind "point") (.text "point") (present _) (tagged _)).1 _
      List.mem_cons_self (by simp)
    cases hpayload
    exact entered
  · refine (validated (figureKind "cube") (.text "cube") (present _) (tagged _)).2 fun e he => ?_
    rcases List.mem_pair.mp he with rfl | rfl <;> simp

end Conform
