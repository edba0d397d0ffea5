import Conform.Proofs.Agreeing
import Conform.Proofs.Variants

/-!
Unions of classes that carry schemas. A union of several such classes, with the absent value or without it, suggests a
choice that compiles. Its cases are filed under the names of the classes, so that of several classes of one name only
the last one has a case, and every instance of a class of that name is validated as one of the last. Where no two
classes have one name, an instance of a member is validated by the schema of that member, and by no other.
-/

namespace Conform

/-- A report of what was found further in, seen from where the way to it starts. -/
def Report.under (p : Path) (r : Report) : Report := .of r.value (r.violations.map (Violation.under p))

theorem inward_report (p : Path) (v : Value) (found : Except Fault (List Violation)) :
    (inward p found).map (Report.of v) = (found.map (Report.of v)).map (Report.under p) := by
  cases found <;> rfl

namespace Hint

/-- A class with a schema, as a member of a union. -/
def IsDescribed (h : Host) (m : Hint) : Prop :=
  ∃ d attributes S, m = .cls (.declared d) attributes ∧ h.classSchema d = some S

section Members
variable {h : Host} {owner : Option ClassRef} {members : List Hint}

theorem IsDescribed.isStructure {m : Hint} (described : m.IsDescribed h) : isStructure h owner m = true := by
  obtain ⟨d, attributes, S, rfl, hS⟩ := described
  simp [Hint.isStructure, Host.schemaOf?, hS]

theorem of_mem_choice {e : Value × Payload} (he : e ∈ choice members) :
    ∃ c attributes, .cls c attributes ∈ members ∧ e.2 = .target (.value (.cls c attributes)) := by
  induction members using List.reverseRecOn with
  | nil => cases he
  | append_singleton members m ih =>
    have before (he : e ∈ choice members) :
        ∃ c attributes, .cls c attributes ∈ members ++ [m] ∧ e.2 = .target (.value (.cls c attributes)) := by
      obtain ⟨c, attributes, hm, payload⟩ := ih he
      exact ⟨c, attributes, List.mem_append_left _ hm, payload⟩
    cases m with
    | cls c attributes =>
      rw [choice_concat] at he
      rcases Value.mem_assign he with he | ⟨payload, -⟩
      · exact before he
      · exact ⟨c, attributes, List.mem_append_right _ List.mem_cons_self, payload⟩
    | _ =>
      rw [choice, List.foldl_append] at he
      exact before he

theorem choice_ne_nil (classes : ∀ m ∈ members, isStructure h owner m = true) (nonempty : members ≠ []) :
    choice members ≠ [] := by
  rw [← List.dropLast_append_getLast nonempty] at classes ⊢
  obtain ⟨c, attributes, last⟩ := isStructure_cls (classes _ (List.mem_append_right _ List.mem_cons_self))
  rw [last] at classes ⊢
  exact List.ne_nil_of_mem (mem_choice classes nofun)

end Members

end Hint

namespace Workshop
variable {w : Workshop} {site : Site}

theorem compilePayload_described {d : DeclaredClass} {attributes : List (String × Value)} {S : Schema}
    (described : w.host.classSchema d = some S) :
    w.compilePayload site (.target (.value (.cls (.declared d) attributes)))
      = .ok (some (.nested [] (.value (.cls (.declared d) attributes)))) := by
  have known : w.isScalarClass (.value (.cls (.declared d) attributes)) = false := by
    simp [isScalarClass, Host.schemaOf?, described]
  have target : w.checkTarget (.value (.cls (.declared d) attributes)) site = .ok () := by
    simp [checkTarget, Host.schemaOf?, described]
  simp only [compilePayload, known, target]
  rfl

/-- What stands under a text in a compiled choice: what was compiled for the case of that name. -/
theorem compileCases_filed {cases : List (Value × Payload)} {nodes : List (Value × Option Node)} {name : String}
    {payload : Payload} (hnodes : w.compileCases site cases [] = .ok nodes)
    (names : ∃ texts : List String, cases.map Prod.fst = texts.map Value.text ∧ texts.Nodup)
    (hm : (.text name, payload) ∈ cases) :
    ∃ node, w.compilePayload { site with variant := some (.text name) } payload = .ok node ∧
      Value.lookup? (.text name) nodes = some node := by
  obtain ⟨texts, names, nodup⟩ := names
  have filed := compileCases_lookup (.text name) hnodes nofun
  rwa [Value.selects_of_names names nodup hm (by simp)] at filed

/-- A union of several classes with schemas compiles, and the last class of a name is filed under the name. -/
theorem compile_union (site : Site) {members : List Hint} (described : ∀ m ∈ Hint.present members, m.IsDescribed w.host)
    (several : 2 ≤ (Hint.present members).length) (owner : Option ClassRef) :
    ∃ nodes, w.compile site ((Hint.union members).inferShape w.host owner)
        = .ok ((Node.variants [] nodes .absent).wrapped (if members.any Hint.isAbsentClass then [.optional] else [])) ∧
      ∀ before d attributes after, Hint.present members = before ++ .cls (.declared d) attributes :: after →
        (∀ m ∈ after, m.caseName ≠ d.name) →
          Value.lookup? (.text d.name) nodes = some (some (.nested [] (.value (.cls (.declared d) attributes)))) := by
  have classes (m : Hint) (hm : m ∈ Hint.present members) : Hint.isStructure w.host owner m = true :=
    (described m hm).isStructure
  have inferred : (Hint.union members).inferShape w.host owner
      = (Shape.variants (Hint.choice (Hint.present members)) .absent []).wrapped
          (if members.any Hint.isAbsentClass then [.optional] else []) := by
    rw [Hint.inferShape_union, Hint.presentShape_several several, Hint.unionShape, if_pos (List.all_eq_true.mpr classes)]
    cases members.any Hint.isAbsentClass <;> rfl
  have payloads : ∀ e ∈ Hint.choice (Hint.present members),
      ∃ payload, w.compilePayload { site with variant := some e.1 } e.2 = .ok payload := by
    intro e he
    obtain ⟨c, attributes, hm, payload⟩ := Hint.of_mem_choice he
    obtain ⟨d, _, S, same, hS⟩ := described _ hm
    cases same
    exact ⟨_, payload ▸ compilePayload_described hS⟩
  have nonempty : Hint.present members ≠ [] := List.ne_nil_of_length_pos (by omega)
  have unruled : ∃ bound, w.bindRules (.variants (Hint.choice (Hint.present members)) .absent []) site [] = .ok bound :=
    ⟨[], rfl⟩
  obtain ⟨inner, hinner⟩ := compile_choice_ok_iff.mpr ⟨Hint.choice_ne_nil classes nonempty, unruled, payloads⟩
  obtain ⟨bound, nodes, hbound, -, hnodes, rfl⟩ := compile_choice hinner
  cases hbound
  -- Inference has filed the classes under their names already, so compiling finds the texts different.
  refine ⟨nodes, inferred ▸ compile_wrapped hinner _, fun before d attributes after split last => ?_⟩
  rw [split] at classes hnodes
  obtain ⟨node, hnode, filed⟩ := compileCases_filed hnodes (Hint.choice_names classes) (Hint.mem_choice classes last)
  obtain ⟨_, _, S, same, hS⟩ := described (.cls (.declared d) attributes)
    (split ▸ List.mem_append_right _ List.mem_cons_self)
  cases same
  cases hnode.symm.trans (compilePayload_described hS)
  exact filed

end Workshop

section Instances
variable {h : Host} {d c : DeclaredClass} {attributes own inherited : List (String × Value)} {n : Nat}
  {nodes : List (Value × Option Node)}

/-- An instance is validated by what stands under the name of its class, seen from under that name. -/
theorem walk_by_class {node : Node} (filed : Value.lookup? (.text c.name) nodes = some (some node)) :
    walk h (.variants [] nodes .absent) (.object c n own inherited)
      = inward [.variant (.text c.name)] (walk h node (.object c n own inherited)) := by
  have selected : selectCase h .absent (.object c n own inherited) nodes = .ok (.text c.name, some (some node)) := by
    rw [selectCase]
    change Except.ok (Value.text c.name, Value.lookup? (.text c.name) nodes) = _
    rw [filed]
  rw [walk_variants (by simp [Value.isAbsent]) selected]
  exact andThen_ok_nil _

/-- What a choice finds in an instance it finds where the absent value is let in too. -/
theorem walk_optionally {node : Node} (absent : Bool) {v : Value} (hv : ¬v.isAbsent = true) :
    walk h (node.wrapped (if absent then [.optional] else [])) v = walk h node v := by
  cases absent with
  | false => rfl
  | true => exact (walk_optional hv).trans (andThen_ok_nil _)

/-- An instance that can hold the fields of the schema of its class is validated by it as a structure of the class. -/
theorem validate_structure {S : Schema} (carries : h.classSchema d = some S)
    (holds : (Value.object d n own inherited).canHold S = .ok true) :
    (Node.nested [] (.value (.cls (.declared d) attributes))).validate h (.object d n own inherited)
      = S.validate h (.object d n own inherited) := by
  have hs : h.targetSchema? (.value (.cls (.declared d) attributes)) = some S := carries
  rw [Node.validate_eq_walk, Schema.validate_eq_walk, walk_nested (by simp [Value.isAbsent]) hs holds]
  exact congrArg (Except.map _) (andThen_ok_nil _)

end Instances

/-- A union of several classes that carry schemas suggests a choice that compiles, with the absent value among them or
without it. An instance of a class of some name is validated as a structure of the last member of that name, under the
name. Where the members have different names, an instance of a member is thus validated by the schema of the member,
under its name, if it can hold the fields of it, as it can when the schema was made for its class or for one above. -/
theorem union_by_name {h : Host} {members : List Hint}
    (described : ∀ m ∈ Hint.present members, m.IsDescribed h) (several : 2 ≤ (Hint.present members).length)
    (b : SchemaBuilder) (t : FunctionTable) (owner : Option ClassRef) :
    ∃ node, b.compileShape h t (.shape ((Hint.union members).inferShape h owner)) = .ok node ∧
      (∀ before d attributes after, Hint.present members = before ++ .cls (.declared d) attributes :: after →
        (∀ m ∈ after, m.caseName ≠ d.name) → ∀ c n own inherited, c.name = d.name →
          node.validate h (.object c n own inherited)
            = ((Node.nested [] (.value (.cls (.declared d) attributes))).validate h (.object c n own inherited)).map
                (Report.under [.variant (.text d.name)])) ∧
      (((Hint.present members).map Hint.caseName).Nodup → ∀ d attributes S,
        .cls (.declared d) attributes ∈ Hint.present members → h.classSchema d = some S →
          (∀ n own inherited, (Value.object d n own inherited).canHold S = .ok true →
            node.validate h (.object d n own inherited)
              = (S.validate h (.object d n own inherited)).map (Report.under [.variant (.text d.name)])) ∧
          ∀ c targetAttributes, S.targetType = .cls (.declared c) targetAttributes → d.Below c →
            ∀ n own inherited, (Value.object d n own inherited).canHold S = .ok true) := by
  obtain ⟨nodes, compiled, filed⟩ := (b.workshop h t).compile_union { schema := b.name } described several owner
  have by_name : ∀ before d attributes after, Hint.present members = before ++ .cls (.declared d) attributes :: after →
      (∀ m ∈ after, m.caseName ≠ d.name) → ∀ c n own inherited, c.name = d.name →
        ((Node.variants [] nodes .absent).wrapped (if members.any Hint.isAbsentClass then [.optional] else [])).validate h
            (.object c n own inherited)
          = ((Node.nested [] (.value (.cls (.declared d) attributes))).validate h (.object c n own inherited)).map
              (Report.under [.variant (.text d.name)]) := by
    intro before d attributes after split last c n own inherited named
    have filed := filed before d attributes after split last
    rw [← named] at filed ⊢
    rw [Node.validate_eq_walk, walk_optionally _ (by simp [Value.isAbsent]), walk_by_class filed, inward_report,
      Node.validate_eq_walk]
  refine ⟨_, compiled, by_name, fun names d attributes S hm carries => ⟨fun n own inherited holds => ?_, ?_⟩⟩
  · obtain ⟨before, after, split⟩ := List.append_of_mem hm
    have last : ∀ m ∈ after, m.caseName ≠ d.name := by
      rw [split, List.map_append, List.map_cons] at names
      have apart := (List.nodup_cons.mp (List.nodup_append.mp names).2.1).1
      exact fun m hm same => apart (List.mem_map.mpr ⟨m, hm, same⟩)
    rw [by_name before d attributes after split last d n own inherited rfl, validate_structure carries holds]
  · exact fun c targetAttributes target below n own inherited => Value.canHold_of_below target below

namespace Session

/-- A gauge, a dial or nothing. -/
abbrev instruments : List Hint :=
  [.cls (.declared gaugeClass.ref) gaugeClass.classAttributes, Hint.absentClass,
    .cls (.declared dialClass.ref) dialClass.classAttributes]

theorem union_by_name_of_instruments :
    ∃ node, ({ name := .text "s" } : SchemaBuilder).compileShape gaugeHost .default
        (.shape ((Hint.union instruments).inferShape gaugeHost none)) = .ok node ∧
      kinds (node.validate gaugeHost (reading gaugeClass [("x", .int 5)])) = .ok ["max"] ∧
      node.validate gaugeHost (reading gaugeClass [("x", .int 5)])
        = (gaugeSchema.validate gaugeHost (reading gaugeClass [("x", .int 5)])).map
            (Report.under [.variant (.text "Gauge")]) := by
  have described : ∀ m ∈ Hint.present instruments, m.IsDescribed gaugeHost := by
    intro m hm
    rcases List.mem_pair.mp hm with rfl | rfl <;> exact ⟨_, _, _, rfl, rfl⟩
  obtain ⟨node, compiled, -, apart⟩ :=
    union_by_name described (Nat.le_refl 2) { name := .text "s" } .default none
  obtain ⟨validated, holds⟩ := apart (by decide) gaugeClass.ref gaugeClass.classAttributes gaugeSchema
    List.mem_cons_self rfl
  have own := validated 9 [("x", .int 5)] gaugeClass.classAttributes (holds gaugeClass.ref _ rfl (.inl rfl) _ _ _)
  have moved (found : Except Fault Report) : kinds (found.map (Report.under [.variant (.text "Gauge")])) = kinds found := by
    cases found <;> simp [kinds, Except.map, Report.under, Violation.under, Function.comp_def]
  refine ⟨node, compiled, ?_, own⟩
  rw [own, moved]
  exact kinds_five ..

end Session

end Conform
