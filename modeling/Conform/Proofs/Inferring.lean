import Conform.Proofs.Hints
import Conform.Proofs.Inventory
import Mathlib.Data.List.Induction
import Mathlib.Data.List.Pairwise
import Mathlib.Data.List.Perm.Subperm

/-!
What the shape of a hint has of the declarations in the hint. It has every rule that is declared in the hint if and
only if nothing is declared where hints are not followed: at the positions of a tuple, in a union of several members,
and before an explicit shape that is declared later beside the same hint. Every class with a schema that stands where
hints are followed is a structure in the shape, or a case of a choice.
-/

namespace Conform
namespace Hint

/-- The last shape that is given explicitly, which replaces what a hint suggests. -/
def explicit (notes : List Declarations) : Option Shape := (notes.filterMap Declarations.shape).getLast?

mutual

/-- Everything that is declared in a hint, but for what an explicit shape replaces. -/
def rules : Hint → List Rule
  | .annotated base notes => (explicit notes).elim base.rules Shape.allRules ++ notes.flatMap Declarations.rules
  | .generic _ args => rulesOf args
  | .union members => rulesOf members
  | .classVariable x | .initVariable x => x.rules
  | .nothing | .cls _ _ | .forward _ | .literal _ => []

/-- Everything that is declared in several hints. -/
def rulesOf : List Hint → List Rule
  | [] => []
  | x :: rest => x.rules ++ rulesOf rest

end

/-- Declarations of which none has rules before an explicit shape. -/
def Kept (notes : List Declarations) : Prop :=
  notes.Pairwise fun before after => after.shape.isSome = true → before.rules = []

/-- Hints in which nothing is declared where hints are not followed. -/
inductive Sighted : Hint → Prop where
  | blank {x} (none : x.rules = []) : Sighted x
  | element {name a rest} (ha : Sighted a) (others : rulesOf rest = []) : Sighted (.generic (.elements name) (a :: rest))
  | entry {name k w} (hk : Sighted k) (hw : Sighted w) : Sighted (.generic (.entries name) [k, w])
  | single {members m} (hp : present members = [m]) (hm : Sighted m) : Sighted (.union members)
  | annotated {base notes} (kept : Kept notes) (hb : explicit notes = none → Sighted base) :
      Sighted (.annotated base notes)

/-- A hint inside another, and the turns that lead to its level: into elements, keys and values, and to the only
member of a union besides the absent value. -/
inductive Inside : Hint → List Turn → Hint → Prop where
  | here {x} : Inside x [] x
  | element {name a rest way y} (ha : Inside a way y) : Inside (.generic (.elements name) (a :: rest)) (.inner :: way) y
  | key {name k w way y} (hk : Inside k way y) : Inside (.generic (.entries name) [k, w]) (.keys :: way) y
  | value {name k w way y} (hw : Inside w way y) : Inside (.generic (.entries name) [k, w]) (.inner :: way) y
  | optional {members m way y} (hp : present members = [m]) (absent : members.any isAbsentClass = true)
      (hm : Inside m way y) : Inside (.union members) (.inner :: way) y
  | annotated {base notes turn way y} (bare : explicit notes = none) (hb : Inside base (turn :: way) y) :
      Inside (.annotated base notes) (turn :: way) y

/-- The name that a class has among the cases of a choice. -/
def caseName : Hint → String
  | .cls c _ => c.name
  | _ => ""

/-- A class with a schema in a hint, and the turns that lead to its level. The class may be one of several in a union,
if each of them has a schema, and if no later one has its name. -/
inductive Sees (h : Host) (owner : Option ClassRef) : Hint → List Turn → ClassRef → List (String × Value) → Prop where
  | cls {c attributes} (hc : isStructure h owner (.cls c attributes) = true) :
      Sees h owner (.cls c attributes) [] c attributes
  | element {name a rest way c attributes} (ha : Sees h owner a way c attributes) :
      Sees h owner (.generic (.elements name) (a :: rest)) (.inner :: way) c attributes
  | key {name k w way c attributes} (hk : Sees h owner k way c attributes) :
      Sees h owner (.generic (.entries name) [k, w]) (.keys :: way) c attributes
  | value {name k w way c attributes} (hw : Sees h owner w way c attributes) :
      Sees h owner (.generic (.entries name) [k, w]) (.inner :: way) c attributes
  | optional {members m way c attributes} (hp : present members = [m]) (absent : members.any isAbsentClass = true)
      (hm : Sees h owner m way c attributes) : Sees h owner (.union members) (.inner :: way) c attributes
  | choice {members before after c attributes} (hp : present members = before ++ .cls c attributes :: after)
      (several : 2 ≤ (present members).length) (classes : ∀ m ∈ present members, isStructure h owner m = true)
      (last : ∀ m ∈ after, m.caseName ≠ c.name) :
      Sees h owner (.union members) (if members.any isAbsentClass then [.inner] else []) c attributes
  | annotated {base notes way c attributes} (bare : explicit notes = none) (hb : Sees h owner base way c attributes) :
      Sees h owner (.annotated base notes) way c attributes

/-! ### Declarations beside a hint -/

theorem withRules_withRules (s : Shape) (a b : List Rule) : (s.withRules a).withRules b = s.withRules (a ++ b) := by
  obtain ⟨kind, rules, type, inner, keys, target, cases, tag⟩ := s
  simp [Shape.withRules, Shape.kind, Shape.rules, Shape.type, Shape.inner, Shape.keys, Shape.target, Shape.cases, Shape.tag]

theorem withRules_nil (s : Shape) : s.withRules [] = s := by
  obtain ⟨kind, rules, type, inner, keys, target, cases, tag⟩ := s
  simp [Shape.withRules, Shape.kind, Shape.rules, Shape.type, Shape.inner, Shape.keys, Shape.target, Shape.cases, Shape.tag]

theorem at?_withRules (s : Shape) (more : List Rule) (turn : Turn) (way : List Turn) :
    (s.withRules more).at? (turn :: way) = s.at? (turn :: way) := by
  obtain ⟨kind, rules, type, inner, keys, target, cases, tag⟩ := s
  exact Shape.at?_below (by rfl) (by rfl) (by rfl) turn way

theorem explicit_cons (note : Declarations) (rest : List Declarations) :
    explicit (note :: rest) = (explicit rest).or note.shape := by
  rw [explicit, explicit, List.filterMap_cons]
  cases note.shape with
  | none => simp
  | some s => rw [List.getLast?_cons]; cases (rest.filterMap Declarations.shape).getLast? <;> rfl

theorem shape_of_explicit {notes : List Declarations} (bare : explicit notes = none) : ∀ d ∈ notes, d.shape = none := by
  rw [explicit, List.getLast?_eq_none_iff, List.filterMap_eq_nil_iff] at bare
  exact bare

theorem amend_cons (s : Shape) (note : Declarations) (rest : List Declarations) :
    amend s (note :: rest) = amend ((note.shape.getD s).withRules note.rules) rest := rfl

theorem Kept.of_bare {notes : List Declarations} (bare : explicit notes = none) : Kept notes :=
  List.pairwise_of_forall_mem_list fun a _ b hb given => by simp [shape_of_explicit bare b hb] at given

/-- When no rule stands before an explicit shape, all the rules are added to the last explicit shape, or else to what
the hint suggests. -/
theorem Kept.amend_eq : ∀ {notes : List Declarations} (s : Shape), Kept notes →
    amend s notes = ((explicit notes).getD s).withRules (notes.flatMap Declarations.rules)
  | [], s, _ => (withRules_nil s).symm
  | note :: rest, s, kept => by
    obtain ⟨first, kept⟩ := List.pairwise_cons.mp kept
    rw [amend_cons, Kept.amend_eq _ kept, explicit_cons, List.flatMap_cons]
    cases later : explicit rest with
    | none => exact withRules_withRules _ _ _
    | some e =>
      obtain ⟨d, hd, hs⟩ := List.mem_filterMap.mp (List.mem_of_getLast? later)
      have none : note.rules = [] := first d hd (by rw [hs]; rfl)
      rw [none]
      rfl

/-- Rules alone are added to what the hint suggests. -/
theorem amend_bare {notes : List Declarations} (bare : explicit notes = none) (s : Shape) :
    amend s notes = s.withRules (notes.flatMap Declarations.rules) := by
  rw [(Kept.of_bare bare).amend_eq s, bare]
  rfl

/-- Declarations beside a hint add nothing but what they say. -/
theorem allRules_amend : ∀ (notes : List Declarations) (s : Shape),
    (amend s notes).allRules.Subperm (((explicit notes).getD s).allRules ++ notes.flatMap Declarations.rules)
  | [], s => by
    rw [List.flatMap_nil, List.append_nil]
    exact List.Subperm.refl _
  | note :: rest, s => by
    rw [amend_cons, explicit_cons, List.flatMap_cons]
    have ih := allRules_amend rest ((note.shape.getD s).withRules note.rules)
    cases later : explicit rest with
    | some e =>
      rw [later] at ih
      exact ih.trans ((List.sublist_append_right _ _).append_left _).subperm
    | none =>
      rw [later] at ih
      have own := (Shape.allRules_withRules (note.shape.getD s) note.rules).append_right (rest.flatMap Declarations.rules)
      rw [List.append_assoc] at own
      exact ih.trans own.subperm

/-- If nothing of what declarations say is missing, then none of them has rules before an explicit shape. -/
theorem Kept.of_length : ∀ {notes : List Declarations} (s : Shape),
    ((explicit notes).getD s).allRules.length + (notes.flatMap Declarations.rules).length ≤ (amend s notes).allRules.length →
      Kept notes
  | [], s, _ => .nil
  | note :: rest, s, full => by
    rw [amend_cons, explicit_cons, List.flatMap_cons, List.length_append] at full
    have most := (allRules_amend rest ((note.shape.getD s).withRules note.rules)).length_le
    rw [List.length_append] at most
    cases later : explicit rest with
    | some e =>
      -- A later explicit shape takes the place of what was there, so the rules here can only be none.
      rw [later, Option.some_or, Option.getD_some] at full
      rw [later, Option.getD_some] at most
      have none : note.rules = [] := List.length_eq_zero_iff.mp (by omega)
      refine List.pairwise_cons.mpr ⟨fun _ _ _ => none, Kept.of_length ((note.shape.getD s).withRules note.rules) ?_⟩
      rw [later, Option.getD_some]
      omega
    | none =>
      rw [explicit] at later
      refine List.pairwise_cons.mpr ⟨fun d hd given => ?_, Kept.of_bare later⟩
      rw [shape_of_explicit later d hd] at given
      cases given

/-! ### Rules -/

section Rules
variable {h : Host} {owner : Option ClassRef}

theorem rules_of_absentClass {m : Hint} (hm : m.isAbsentClass = true) : m.rules = [] := by
  cases m <;> first | rfl | cases hm

theorem rulesOf_present (members : List Hint) : rulesOf members = rulesOf (present members) := by
  induction members with
  | nil => rfl
  | cons m rest ih =>
    cases hm : m.isAbsentClass with
    | true => simp [rulesOf, present, hm, rules_of_absentClass hm, ih]
    | false => simp [rulesOf, present, hm, ih]

theorem allRules_anyScalar : anyScalar.allRules = [] := Shape.allRules_scalar _ _

theorem allRules_unionShape (members : List Hint) : (unionShape h owner members).allRules = [] := by
  unfold unionShape
  split
  · exact Shape.allRules_variants _ _ _
  · exact allRules_anyScalar

theorem allRules_classShape (c : ClassRef) (attributes : List (String × Value)) :
    (classShape h owner c attributes).allRules = [] := by
  unfold classShape
  split
  iterate 7
    · rw [Shape.allRules_wrapper, allRules_anyScalar]
      rfl
  · exact allRules_anyScalar
  · split
    · exact Shape.allRules_nested _ _
    · exact Shape.allRules_scalar _ _

theorem allRules_union (members : List Hint) :
    ((union members).inferShape h owner).allRules = (presentShape h owner (present members)).allRules := by
  rw [inferShape_union]
  dsimp only
  split
  · rw [Shape.allRules_wrapper]
    rfl
  · rfl

/-- What several present members suggest is a choice or any scalar. -/
theorem presentShape_several {hints : List Hint} (several : 2 ≤ hints.length) :
    presentShape h owner hints = unionShape h owner hints := by
  rcases hints with _ | ⟨m, _ | ⟨m', rest⟩⟩
  · rfl
  · simp at several
  · rfl

theorem bare_rules {x : Hint} (none : (x.inferShape h owner).allRules = []) :
    (x.inferShape h owner).allRules.Subperm x.rules ∧
      (x.rules.length ≤ (x.inferShape h owner).allRules.length → x.Sighted) := by
  rw [none]
  exact ⟨List.nil_subperm, fun full => .blank (List.length_eq_zero_iff.mp (Nat.le_zero.mp full))⟩

-- Both facts in one induction: that nothing is missing from the whole means that nothing is missing from a part, since
-- the other parts cannot have more than is declared in them.
mutual

/-- The shape of a hint has no rules but those that are declared in the hint, and none more often. It has all of them
only if nothing is declared where hints are not followed. -/
theorem inferShape_rules : ∀ (x : Hint), (x.inferShape h owner).allRules.Subperm x.rules ∧
    (x.rules.length ≤ (x.inferShape h owner).allRules.length → x.Sighted)
  | .annotated base notes => by
    obtain ⟨most, full⟩ := inferShape_rules base
    have amended := allRules_amend notes (base.inferShape h owner)
    rw [inferShape, rules]
    cases given : explicit notes with
    | some e =>
      rw [given] at amended
      refine ⟨amended, fun all => .annotated (Kept.of_length (base.inferShape h owner) ?_) fun bare => ?_⟩
      · rw [given]
        rwa [List.length_append] at all
      · cases given.symm.trans bare
    | none =>
      rw [given, Option.getD_none] at amended
      rw [Option.elim_none]
      refine ⟨amended.trans (most.append (List.Subperm.refl _)), fun all => ?_⟩
      refine .annotated (Kept.of_bare given) fun _ => full ?_
      have least := amended.length_le
      rw [List.length_append] at all least
      omega
  | .union members => by
    rcases hp : present members with _ | ⟨m, _ | ⟨m', rest⟩⟩
    · refine bare_rules ?_
      rw [allRules_union, hp, presentShape, allRules_unionShape]
      exact nofun
    · have hm : m ∈ members := (List.mem_filter.mp (hp ▸ List.mem_cons_self : m ∈ present members)).1
      have same : rulesOf members = m.rules := by rw [rulesOf_present, hp, rulesOf, rulesOf, List.append_nil]
      obtain ⟨most, full⟩ := inferShapes_rules members m hm
      rw [allRules_union, hp, presentShape, rules, same]
      exact ⟨most, fun all => .single hp (full all)⟩
    · refine bare_rules ?_
      rw [allRules_union, hp, presentShape, allRules_unionShape]
      exact nofun
  | .generic (.elements name) (a :: rest) => by
    obtain ⟨most, full⟩ := inferShape_rules a
    have least := most.length_le
    have same : ((generic (.elements name) (a :: rest)).inferShape h owner).allRules = (a.inferShape h owner).allRules := by
      rw [inferShape, inferShapes, Shape.allRules_wrapper]
      rfl
    rw [same, rules, rulesOf]
    refine ⟨most.trans (List.sublist_append_left _ _).subperm, fun all => ?_⟩
    rw [List.length_append] at all
    exact .element (full (by omega)) (List.length_eq_zero_iff.mp (by omega))
  | .generic (.entries name) [k, w] => by
    obtain ⟨mostKeys, fullKeys⟩ := inferShape_rules k
    obtain ⟨most, full⟩ := inferShape_rules w
    have leastKeys := mostKeys.length_le
    have least := most.length_le
    have same : ((generic (.entries name) [k, w]).inferShape h owner).allRules
        = (k.inferShape h owner).allRules ++ (w.inferShape h owner).allRules := by
      rw [inferShape, inferShapes, inferShapes, inferShapes]
      rw [Shape.allRules_wrapper]
      rfl
    rw [same, rules, rulesOf, rulesOf, rulesOf, List.append_nil]
    refine ⟨mostKeys.append most, fun all => ?_⟩
    rw [List.length_append, List.length_append] at all
    exact .entry (fullKeys (by omega)) (full (by omega))
  | .generic (.elements name) [] | .generic .positions args | .generic (.entries name) [] | .generic (.entries name) [_]
  | .generic (.entries name) (_ :: _ :: _ :: _) => by
    refine bare_rules ?_
    simp only [inferShape, inferShapes]
    exact (Shape.allRules_wrapper _ _ _ _).trans allRules_anyScalar
  | .cls c attributes => by
    refine bare_rules ?_
    rw [inferShape, allRules_classShape]
  | .nothing | .forward _ | .generic (.other _) _ | .literal _ | .classVariable _ | .initVariable _ => by
    refine bare_rules ?_
    rw [inferShape, allRules_anyScalar]

theorem inferShapes_rules : ∀ (hints : List Hint), ∀ x ∈ hints, (x.inferShape h owner).allRules.Subperm x.rules ∧
    (x.rules.length ≤ (x.inferShape h owner).allRules.length → x.Sighted)
  | [] => nofun
  | y :: rest => by
    intro x hx
    rcases List.mem_cons.mp hx with same | hx
    · rw [same]
      exact inferShape_rules y
    · exact inferShapes_rules rest x hx

end

/-- Where nothing is declared in a place that is not followed, the shape of a hint has every rule that is declared in
the hint, as often as it is declared; and only there. -/
theorem allRules_perm_iff {x : Hint} : (x.inferShape h owner).allRules.Perm x.rules ↔ x.Sighted := by
  refine ⟨fun perm => (inferShape_rules x).2 (Nat.le_of_eq perm.length_eq.symm), fun sighted => ?_⟩
  induction sighted with
  | @blank x none =>
    have most := (@inferShape_rules h owner x).1
    rw [none] at most
    rw [none, List.subperm_nil.mp most]
  | @element name a rest ha others ih =>
    rw [inferShape, inferShapes, Shape.allRules_wrapper, rules, rulesOf, others, List.append_nil]
    exact ih
  | entry hk hw ihk ihw =>
    rw [inferShape, inferShapes, inferShapes, inferShapes, rules, rulesOf, rulesOf, rulesOf, List.append_nil]
    rw [Shape.allRules_wrapper, Shape.rulesWithin, List.nil_append]
    exact ihk.append ihw
  | single hp hm ih =>
    rw [allRules_union, hp, rules, rulesOf_present, hp, rulesOf, rulesOf, List.append_nil]
    exact ih
  | @annotated base notes kept hb ih =>
    rw [inferShape, kept.amend_eq, rules]
    refine (Shape.allRules_withRules _ _).trans (List.Perm.append_right _ ?_)
    cases given : explicit notes with
    | some e => exact .refl _
    | none => exact ih given

end Rules

/-! ### Levels -/

section Levels
variable {h : Host} {owner : Option ClassRef}

/-- A hint inside another suggests the level that is there. -/
theorem Inside.level {x y : Hint} {way : List Turn} (inside : Inside x way y) :
    (x.inferShape h owner).at? way = some (y.inferShape h owner) := by
  induction inside with
  | here => rfl
  | element ha ih => exact ih
  | key hk ih => exact ih
  | value hw ih => exact ih
  | optional hp absent hm ih =>
    rw [inferShape_union, absent, hp]
    exact ih
  | @annotated base notes turn way y bare hb ih =>
    rw [inferShape, amend_bare bare, ← ih]
    exact at?_withRules _ _ turn way

/-- Only declared classes have schemas. -/
theorem isStructure_declared {ref : DeclaredClass} {c : ClassRef} {attributes : List (String × Value)}
    (hc : isStructure h (some (.declared ref)) (.cls c attributes) = true) : ∃ d, c = .declared d := by
  cases c with
  | declared d => exact ⟨d, rfl⟩
  | _ => simp [isStructure, Host.schemaOf?] at hc

theorem isStructure_cls {m : Hint} (hm : isStructure h owner m = true) : ∃ c attributes, m = .cls c attributes := by
  cases m <;> first | exact ⟨_, _, rfl⟩ | cases hm

/-- Setting what stands under a text keeps the texts apart. -/
theorem assign_names {α : Type} {n : String} {a : α} : ∀ {texts : List String} {entries : List (Value × α)},
    entries.map Prod.fst = texts.map Value.text → texts.Nodup →
      ∃ named : List String, (Value.assign (.text n) a entries).map Prod.fst = named.map Value.text ∧ named.Nodup ∧
        ∀ u, u ∈ named ↔ u = n ∨ u ∈ texts
  | [], [], _, _ => ⟨[n], rfl, List.pairwise_singleton _ n, by simp⟩
  | t :: texts, (k, b) :: rest, names, nodup => by
    rw [List.map_cons, List.map_cons, List.cons.injEq] at names
    obtain ⟨rfl, names⟩ := names
    obtain ⟨new, apart⟩ := List.nodup_cons.mp nodup
    rw [Value.assign, Value.same_text]
    by_cases same : t = n
    · rw [if_pos (beq_iff_eq.mpr same)]
      refine ⟨t :: texts, ?_, nodup, by simp [same]⟩
      rw [List.map_cons, names]
      rfl
    · rw [if_neg (mt beq_iff_eq.mp same)]
      obtain ⟨named, hnamed, apart, members⟩ := assign_names names apart
      refine ⟨t :: named, ?_, List.nodup_cons.mpr ⟨fun ht => ?_, apart⟩, fun u => ?_⟩
      · rw [List.map_cons, hnamed]
        rfl
      · rcases (members t).mp ht with other | ht
        · exact same other
        · exact new ht
      · rw [List.mem_cons, List.mem_cons, members]
        exact or_left_comm
  | [], _ :: _, names, _ => by cases names
  | _ :: _, [], names, _ => by cases names

theorem mem_assign_self {α : Type} {n : String} {a : α} : ∀ {texts : List String} {entries : List (Value × α)},
    entries.map Prod.fst = texts.map Value.text → (.text n, a) ∈ Value.assign (.text n) a entries
  | [], [], _ => List.mem_cons_self
  | t :: texts, (k, b) :: rest, names => by
    rw [List.map_cons, List.map_cons, List.cons.injEq] at names
    obtain ⟨rfl, names⟩ := names
    rw [Value.assign, Value.same_text]
    split
    · next same =>
      rw [beq_iff_eq.mp same]
      exact List.mem_cons_self
    · exact List.mem_cons_of_mem _ (mem_assign_self names)
  | [], _ :: _, names => by cases names
  | _ :: _, [], names => by cases names

theorem mem_assign_other {α : Type} {t n : String} {a b : α} (other : n ≠ t) : ∀ {entries : List (Value × α)},
    (.text t, b) ∈ entries → (.text t, b) ∈ Value.assign (.text n) a entries
  | (k, b') :: rest, ht => by
    rw [Value.assign]
    split
    · next same =>
      rcases List.mem_cons.mp ht with own | ht
      · cases own
        rw [Value.same_text, beq_iff_eq] at same
        exact absurd same.symm other
      · exact List.mem_cons_of_mem _ ht
    · rcases List.mem_cons.mp ht with own | ht
      · cases own
        exact List.mem_cons_self
      · exact List.mem_cons_of_mem _ (mem_assign_other other ht)

theorem choice_concat (members : List Hint) (c : ClassRef) (attributes : List (String × Value)) :
    choice (members ++ [.cls c attributes])
      = Value.assign (.text c.name) (.target (.value (.cls c attributes))) (choice members) := by
  rw [choice, List.foldl_append]
  rfl

/-- The cases of a choice between classes have different texts for names. -/
theorem choice_names {members : List Hint} (classes : ∀ m ∈ members, isStructure h owner m = true) :
    ∃ texts : List String, (choice members).map Prod.fst = texts.map Value.text ∧ texts.Nodup := by
  induction members using List.reverseRecOn with
  | nil => exact ⟨[], rfl, .nil⟩
  | append_singleton members m ih =>
    obtain ⟨c, attributes, rfl⟩ := isStructure_cls (classes m (List.mem_append_right _ List.mem_cons_self))
    obtain ⟨texts, names, nodup⟩ := ih fun m hm => classes m (List.mem_append_left _ hm)
    obtain ⟨named, hnamed, apart, -⟩ := assign_names names nodup
    rw [choice_concat]
    exact ⟨named, hnamed, apart⟩

/-- The last class of a name has a case. -/
theorem mem_choice {before after : List Hint} {c : ClassRef} {attributes : List (String × Value)}
    (classes : ∀ m ∈ before ++ .cls c attributes :: after, isStructure h owner m = true)
    (last : ∀ m ∈ after, m.caseName ≠ c.name) :
    (.text c.name, .target (.value (.cls c attributes))) ∈ choice (before ++ .cls c attributes :: after) := by
  induction after using List.reverseRecOn with
  | nil =>
    obtain ⟨texts, names, -⟩ := choice_names fun m hm => classes m (List.mem_append_left _ hm)
    rw [choice_concat]
    exact mem_assign_self names
  | append_singleton after m ih =>
    rw [← List.cons_append, ← List.append_assoc] at classes ⊢
    have own : m ∈ after ++ [m] := List.mem_append_right _ List.mem_cons_self
    obtain ⟨d, attributes', rfl⟩ := isStructure_cls (classes m (List.mem_append_right _ List.mem_cons_self))
    rw [choice_concat]
    exact mem_assign_other (last _ own) (ih (fun m hm => classes m (List.mem_append_left _ hm))
      fun m hm => last m (List.mem_append_left _ hm))

theorem offers_choice {before after : List Hint} {c : ClassRef} {attributes : List (String × Value)}
    (classes : ∀ m ∈ before ++ .cls c attributes :: after, isStructure h owner m = true)
    (last : ∀ m ∈ after, m.caseName ≠ c.name) :
    (unionShape h owner (before ++ .cls c attributes :: after)).Offers (.cls c attributes) := by
  rw [unionShape, if_pos (List.all_eq_true.mpr classes)]
  exact .case (choice_names classes) (mem_choice classes last)

theorem Sees.known {x : Hint} {way : List Turn} {c : ClassRef} {attributes : List (String × Value)}
    (sees : Sees h owner x way c attributes) : isStructure h owner (.cls c attributes) = true := by
  induction sees with
  | cls hc => exact hc
  | choice hp several classes last =>
    exact classes _ (hp ▸ List.mem_append_right _ List.mem_cons_self)
  | _ => assumption

/-- Every class with a schema that stands where hints are followed is offered at its level of the shape. -/
theorem Sees.offers {ref : DeclaredClass} {x : Hint} {way : List Turn} {c : ClassRef} {attributes : List (String × Value)}
    (sees : Sees h (some (.declared ref)) x way c attributes) :
    ∃ s, (x.inferShape h (some (.declared ref))).at? way = some s ∧ s.Offers (.cls c attributes) := by
  induction sees with
  | cls hc =>
    obtain ⟨d, rfl⟩ := isStructure_declared hc
    refine ⟨_, rfl, ?_⟩
    rw [inferShape, classShape, if_pos hc]
    · exact .nested
    all_goals exact nofun
  | element ha ih => exact ih
  | key hk ih => exact ih
  | value hw ih => exact ih
  | optional hp absent hm ih =>
    rw [inferShape_union, absent, hp]
    exact ih
  | choice hp several classes last =>
    rw [inferShape_union, presentShape_several several, hp]
    rw [hp] at classes
    have offers := offers_choice classes last
    dsimp only
    split
    · exact ⟨_, rfl, offers⟩
    · exact ⟨_, rfl, offers⟩
  | @annotated base notes way c attributes bare hb ih =>
    obtain ⟨s, hs, offers⟩ := ih
    rw [inferShape, amend_bare bare]
    cases way with
    | nil =>
      cases hs
      exact ⟨_, rfl, offers.withRules _⟩
    | cons turn way => exact ⟨s, (at?_withRules _ _ turn way).trans hs, offers⟩

end Levels

end Hint
end Conform
