import Conform.Shape

/-!
The shapes inside a shape. What a shape contains, the shape of its keys and the shapes that its cases carry are parts of
it, to any depth (`Shape.Part`); its stem are the parts that no case stands before (`Shape.Stem`). Rules are found in
every part (`hasRules_iff`), kinds on the stem only (`contains_iff`): what a case carries is not looked at, which makes
no difference to who asks for choices too, since the choice itself is on the stem (`contains_enum_iff`).
-/

namespace Conform
namespace Shape

/-- A shape with everything inside it: what it contains, the shape of its keys, and the shapes that its cases carry. -/
inductive Part : Shape → Shape → Prop
  | self {s} : Part s s
  | inner {s c t} (hc : s.inner = some c) (ht : Part c t) : Part s t
  | keys {s c t} (hc : s.keys = some c) (ht : Part c t) : Part s t
  | payload {s cases name c t} (hs : s.cases = some cases) (hc : (name, .shape c) ∈ cases) (ht : Part c t) : Part s t

/-- A shape with what is inside it, but for what stands in a case. -/
inductive Stem : Shape → Shape → Prop
  | self {s} : Stem s s
  | inner {s c t} (hc : s.inner = some c) (ht : Stem c t) : Stem s t
  | keys {s c t} (hc : s.keys = some c) (ht : Stem c t) : Stem s t

/-- A part that stands in a case of a shape on the stem. -/
def Cased (s t : Shape) : Prop :=
  ∃ choice cases name c, Stem s choice ∧ choice.cases = some cases ∧ (name, .shape c) ∈ cases ∧ Part c t

/-- A shape that is made as shapes are: each kind with what belongs to it, more rules, or another shape inside. -/
inductive Made : Shape → Prop
  | scalar (type rules) : Made (scalar type rules)
  | optional {s} (hs : Made s) (rules) : Made (wrapper .optional (some s) none rules)
  | sequence {s} (hs : Made s) (rules) : Made (wrapper .sequence (some s) none rules)
  | mapping {s} {keys : Option Shape} (hs : Made s) (hk : ∀ k, keys = some k → Made k) (rules) :
      Made (wrapper .mapping (some s) keys rules)
  | nested (target rules) : Made (nested target rules)
  | variants {cases} (hc : ∀ name c, (name, Payload.shape c) ∈ cases → Made c) (tag rules) : Made (variants cases tag rules)
  | withRules {s} (hs : Made s) (more) : Made (s.withRules more)
  | withInner {s c} (hs : Made s) (hc : Made c) : Made (s.withInner c)

variable {s t c : Shape} {kinds : List FieldKind}

/-! ### Parts and the stem -/

theorem Stem.part (h : Stem s t) : Part s t := by
  induction h with
  | self => exact .self
  | inner hc _ ih => exact .inner hc ih
  | keys hc _ ih => exact .keys hc ih

theorem Stem.trans_part (h : Stem s c) (later : Part c t) : Part s t := by
  induction h with
  | self => exact later
  | inner hc _ ih => exact .inner hc (ih later)
  | keys hc _ ih => exact .keys hc (ih later)

/-- A part is on the stem or stands in a case. -/
theorem Part.stem_or_cased (h : Part s t) : Stem s t ∨ Cased s t := by
  induction h with
  | self => exact .inl .self
  | @inner s c t hc _ ih =>
    rcases ih with stem | ⟨choice, cases, name, d, stem, hcases, hm, ht⟩
    · exact .inl (.inner hc stem)
    · exact .inr ⟨choice, cases, name, d, .inner hc stem, hcases, hm, ht⟩
  | @keys s c t hc _ ih =>
    rcases ih with stem | ⟨choice, cases, name, d, stem, hcases, hm, ht⟩
    · exact .inl (.keys hc stem)
    · exact .inr ⟨choice, cases, name, d, .keys hc stem, hcases, hm, ht⟩
  | @payload s cases name c t hs hc ht _ => exact .inr ⟨s, cases, name, c, .self, hs, hc, ht⟩

theorem Cased.part (h : Cased s t) : Part s t := by
  obtain ⟨choice, cases, name, c, stem, hcases, hm, ht⟩ := h
  exact stem.trans_part (.payload hcases hm ht)

/-! ### What queries see -/

theorem contains_eq (kinds : List FieldKind) (s : Shape) :
    s.contains kinds = (kinds.contains s.kind || s.inner.any (contains kinds) || s.keys.any (contains kinds)) := by
  obtain ⟨kind, rules, type, inner, keys, target, cases, tag⟩ := s
  rw [contains.eq_def]
  cases inner <;> cases keys <;> rfl

theorem hasRules_eq (s : Shape) :
    s.hasRules = (!s.rules.isEmpty || s.inner.any hasRules || s.keys.any hasRules || s.cases.any casesHaveRules) := by
  obtain ⟨kind, rules, type, inner, keys, target, cases, tag⟩ := s
  rw [hasRules.eq_def]
  cases inner <;> cases keys <;> cases cases <;> rfl

theorem stem_of_contains : ∀ {s : Shape}, s.contains kinds = true → ∃ t, Stem s t ∧ t.kind ∈ kinds
  | .mk kind rules type inner keys target cases tag, h => by
    rw [contains_eq, Bool.or_eq_true, Bool.or_eq_true] at h
    rcases h with (here | inside) | outside
    · exact ⟨_, .self, by simpa using here⟩
    · rcases inner with _ | c
      · cases inside
      · obtain ⟨t, stem, kind⟩ := stem_of_contains (s := c) inside
        exact ⟨t, .inner rfl stem, kind⟩
    · rcases keys with _ | c
      · cases outside
      · obtain ⟨t, stem, kind⟩ := stem_of_contains (s := c) outside
        exact ⟨t, .keys rfl stem, kind⟩

/-- A shape contains the kinds on its stem. -/
theorem contains_iff : s.contains kinds = true ↔ ∃ t, Stem s t ∧ t.kind ∈ kinds := by
  refine ⟨stem_of_contains, ?_⟩
  rintro ⟨t, stem, kind⟩
  induction stem with
  | self => simp [contains_eq, kind]
  | inner hc _ ih =>
    rw [contains_eq, hc]
    simp [ih kind]
  | keys hc _ ih =>
    rw [contains_eq, hc]
    simp [ih kind]

mutual

theorem part_of_hasRules : ∀ {s : Shape}, s.hasRules = true → ∃ t, Part s t ∧ t.rules ≠ []
  | .mk kind rules type inner keys target cases tag, h => by
    rw [hasRules_eq, Bool.or_eq_true, Bool.or_eq_true, Bool.or_eq_true] at h
    rcases h with ((here | inside) | outside) | carried
    · exact ⟨_, .self, by simpa using here⟩
    · rcases inner with _ | c
      · cases inside
      · obtain ⟨t, part, rules⟩ := part_of_hasRules (s := c) inside
        exact ⟨t, .inner rfl part, rules⟩
    · rcases keys with _ | c
      · cases outside
      · obtain ⟨t, part, rules⟩ := part_of_hasRules (s := c) outside
        exact ⟨t, .keys rfl part, rules⟩
    · rcases cases with _ | cases
      · cases carried
      · obtain ⟨name, c, t, hm, part, rules⟩ := part_of_casesHaveRules cases carried
        exact ⟨t, .payload rfl hm part, rules⟩

theorem part_of_casesHaveRules : ∀ cases : List (Value × Payload), casesHaveRules cases = true →
    ∃ name c t, (name, .shape c) ∈ cases ∧ Part c t ∧ t.rules ≠ []
  | (name, .shape c) :: rest, h => by
    rw [casesHaveRules, Bool.or_eq_true] at h
    rcases h with here | later
    · obtain ⟨t, part, rules⟩ := part_of_hasRules (s := c) here
      exact ⟨name, c, t, List.mem_cons_self, part, rules⟩
    · obtain ⟨name', d, t, hm, found⟩ := part_of_casesHaveRules rest later
      exact ⟨name', d, t, List.mem_cons_of_mem _ hm, found⟩
  | (name, .target target) :: rest, h => by
    rw [casesHaveRules] at h
    obtain ⟨name', d, t, hm, found⟩ := part_of_casesHaveRules rest h
    exact ⟨name', d, t, List.mem_cons_of_mem _ hm, found⟩

end

theorem casesHaveRules_of_mem {cases : List (Value × Payload)} {name : Value} (hm : (name, .shape c) ∈ cases)
    (rules : c.hasRules = true) : casesHaveRules cases = true := by
  induction cases with
  | nil => cases hm
  | cons entry rest ih =>
    rcases List.mem_cons.mp hm with rfl | later
    · rw [casesHaveRules, rules, Bool.true_or]
    · obtain ⟨name', d | target⟩ := entry <;> simp [casesHaveRules, ih later]

/-- A shape has the rules of all its parts. -/
theorem hasRules_iff : s.hasRules = true ↔ ∃ t, Part s t ∧ t.rules ≠ [] := by
  refine ⟨part_of_hasRules, ?_⟩
  rintro ⟨t, part, rules⟩
  induction part with
  | self => simp [hasRules_eq, rules]
  | inner hc _ ih =>
    rw [hasRules_eq, hc]
    simp [ih rules]
  | keys hc _ ih =>
    rw [hasRules_eq, hc]
    simp [ih rules]
  | payload hs hc _ ih =>
    rw [hasRules_eq, hs]
    simp [casesHaveRules_of_mem hc (ih rules)]

/-! ### Shapes that are made as shapes are -/

/-- Only a choice has cases. -/
theorem Made.enum_of_cases (made : Made s) : ∀ {cases : List (Value × Payload)}, s.cases = some cases → s.kind = .enum := by
  induction made with
  | variants => exact fun _ => rfl
  | withRules _ _ ih => exact ih
  | withInner _ _ ih => exact ih
  | _ => nofun

theorem Made.of_inner (made : Made s) : ∀ {c}, s.inner = some c → Made c := by
  induction made with
  | optional hs | sequence hs | mapping hs =>
    intro c hc
    cases hc
    exact hs
  | withRules _ _ ih => exact ih
  | withInner _ hc' =>
    intro c hc
    cases hc
    exact hc'
  | _ => nofun

theorem Made.of_keys (made : Made s) : ∀ {c}, s.keys = some c → Made c := by
  induction made with
  | mapping _ hk => exact hk _
  | withRules _ _ ih => exact ih
  | withInner _ _ ih => exact ih
  | _ => nofun

theorem Made.of_stem (made : Made s) (stem : Stem s t) : Made t := by
  induction stem with
  | self => exact made
  | inner hc _ ih => exact ih (made.of_inner hc)
  | keys hc _ ih => exact ih (made.of_keys hc)

/-- What stands in a case stands behind a choice that is on the stem. -/
theorem Made.contains_enum (made : Made s) (asked : .enum ∈ kinds) :
    s.contains kinds = true ↔ ∃ t, Part s t ∧ t.kind ∈ kinds := by
  rw [contains_iff]
  constructor
  · rintro ⟨t, stem, kind⟩
    exact ⟨t, stem.part, kind⟩
  · rintro ⟨t, part, kind⟩
    rcases part.stem_or_cased with stem | ⟨choice, cases, name, c, stem, hcases, -, -⟩
    · exact ⟨t, stem, kind⟩
    · exact ⟨choice, stem, (made.of_stem stem).enum_of_cases hcases ▸ asked⟩

/-! ### More rules -/

theorem contains_withRules (more : List Rule) : (s.withRules more).contains kinds = s.contains kinds := by
  rw [contains_eq, contains_eq]
  rfl

theorem hasRules_withRules (more : List Rule) : (s.withRules more).hasRules = (s.hasRules || !more.isEmpty) := by
  have own : (s.withRules more).rules = s.rules ++ more := rfl
  have inside : (s.withRules more).inner = s.inner := rfl
  have outside : (s.withRules more).keys = s.keys := rfl
  have carried : (s.withRules more).cases = s.cases := rfl
  have both : (s.rules ++ more).isEmpty = (s.rules.isEmpty && more.isEmpty) := by cases s.rules <;> rfl
  rw [hasRules_eq, hasRules_eq, own, inside, outside, carried, both]
  cases s.rules.isEmpty <;> cases more.isEmpty <;> simp

/-- What the queries of a shape see. It has rules exactly when some part of it has; it contains the kinds on its stem,
so what it misses of the kinds of its parts stands in a case, and nothing is missed by who asks for choices too. More
rules are seen by the one query and change nothing for the other. -/
theorem queries_see (made : Made s) (kinds : List FieldKind) (more : List Rule) :
    (s.hasRules = true ↔ ∃ t, Part s t ∧ t.rules ≠ []) ∧
    (s.contains kinds = true ↔ ∃ t, Stem s t ∧ t.kind ∈ kinds) ∧
    ((∃ t, Part s t ∧ t.kind ∈ kinds) ↔ s.contains kinds = true ∨ ∃ t, Cased s t ∧ t.kind ∈ kinds) ∧
    (.enum ∈ kinds → (s.contains kinds = true ↔ ∃ t, Part s t ∧ t.kind ∈ kinds)) ∧
    (s.withRules more).hasRules = (s.hasRules || !more.isEmpty) ∧
    (s.withRules more).contains kinds = s.contains kinds := by
  refine ⟨hasRules_iff, contains_iff, ⟨?_, ?_⟩, made.contains_enum, hasRules_withRules more, contains_withRules more⟩
  · rintro ⟨t, part, kind⟩
    rcases part.stem_or_cased with stem | cased
    · exact .inl (contains_iff.mpr ⟨t, stem, kind⟩)
    · exact .inr ⟨t, cased, kind⟩
  · rintro (found | ⟨t, cased, kind⟩)
    · obtain ⟨t, stem, kind⟩ := contains_iff.mp found
      exact ⟨t, stem.part, kind⟩
    · exact ⟨t, cased.part, kind⟩

/-- A choice with a case that carries a sequence has the rules of the sequence, and contains none. -/
theorem queries_see_of_choice :
    let tags : Shape := wrapper .sequence (some (scalar .absent [])) none [⟨"max_len", .int 3⟩]
    let choice : Shape := variants [(.text "tags", .shape tags)] .absent []
    Made choice ∧ choice.hasRules = true ∧ (∃ t, Part choice t ∧ t.kind ∈ [FieldKind.sequence]) ∧
      choice.contains [.sequence] = false ∧ choice.contains [.sequence, .enum] = true := by
  intro tags choice
  have made : Made choice := by
    refine .variants (fun name c hc => ?_) .absent []
    cases List.mem_singleton.mp hc
    exact .sequence (.scalar .absent []) _
  have inside : Part choice tags := .payload rfl (List.mem_singleton_self _) .self
  have seen := queries_see made
  refine ⟨made, (seen [] []).1.mpr ⟨tags, inside, nofun⟩, ⟨tags, inside, List.mem_singleton_self _⟩, ?_, ?_⟩
  · rw [contains_eq]
    rfl
  · exact ((seen [.sequence, .enum] []).2.2.2.1 (by simp)).mpr ⟨tags, inside, List.mem_cons_self⟩

end Shape
end Conform
