import Conform.Schema.Visit

/-!
The survey of a value by a node: what one level of validation does, said at once and without recursion. A
survey lists the rules that are applied to the value, the violation of the level itself, the branches
to the values that come next, and the checks that are applied after those. `Step` is the same for one
branch, kind by kind, and every step leads to a shallower value, or to a smaller node at the same value.
-/

namespace Conform

theorem Except.map_eq_ok {ε α β : Type} {f : α → β} {e : Except ε α} {b : β} :
    e.map f = .ok b ↔ ∃ a, e = .ok a ∧ f a = b := by
  cases e <;> simp [Except.map]

theorem Host.requireSchema_eq_ok {h : Host} {target : Target} {s : Schema} :
    h.requireSchema target = .ok s ↔ h.targetSchema? target = some s := by
  unfold Host.requireSchema
  cases h.targetSchema? target <;> simp

theorem Value.entries?_eq_some {v : Value} {entries : List (Value × Value)} (h : v.entries? = some entries) :
    ∃ kind, v = .mapping kind entries := by
  unfold Value.entries? at h
  split at h
  · cases h; exact ⟨_, rfl⟩
  · cases h

/-- The part of a node, or of the schema that it refers to, that a branch follows. -/
inductive Turn where
  | inner | keys
  | case (position : Nat)
  | field (position : Nat)
  deriving Repr, DecidableEq

/-- What comes after a value: the way to another one, the node that describes it, and the value itself,
when it can be read. -/
structure Branch where
  way : Path
  turn : Turn
  node : Node
  value : Except Fault Value

/-- The branch to a value whose node may be missing. -/
def Branch.toward (way : Path) (turn : Turn) (node : Option Node) (v : Value) : List Branch :=
  match node with
  | none => []
  | some node => [⟨way, turn, node, .ok v⟩]

/-- What one level of validation does with a value, in this order. -/
structure Survey where
  rules : List BoundRule := []
  own : Option Violation := none
  branches : List Branch := []
  checks : List BoundRule := []

/-- The branches to the fields of a value, of which the first has the given position. -/
def Schema.fieldBranches (v : Value) (fields : List (Value × Node)) (position : Nat) : List Branch :=
  (fields.zipIdx position).map fun ((name, node), i) =>
    ⟨[FieldSpec.segmentOf name], .field i, node, v.field name⟩

/-- The survey of a value by a schema. -/
def Schema.survey (s : Schema) (v : Value) : Survey :=
  if v.isAbsent then { own := some .required }
  else { branches := Schema.fieldBranches v s.fields 0, checks := s.checks }

namespace Survey

/-- A sequence: its elements by position. -/
def sequence (rules : List BoundRule) (inner : Option Node) (v : Value) : Survey :=
  match v.elements? with
  | none => { own := some (.wrongType (.text "sequence") v) }
  | some items =>
    { rules, branches := items.zipIdx.flatMap fun (x, i) => Branch.toward [.index i] .inner inner x }

/-- A mapping: of each entry the key, then the value, both under the key. -/
def mapping (rules : List BoundRule) (inner keys : Option Node) (v : Value) : Survey :=
  match v.entries? with
  | none => { own := some (.wrongType (.text "mapping") v) }
  | some entries =>
    { rules
      branches := entries.flatMap fun (k, x) =>
        Branch.toward [.key k] .keys keys k ++ Branch.toward [.key k] .inner inner x }

/-- A structure that is present: its fields and then its checks, if it can hold the fields at all. -/
def structured (h : Host) (rules : List BoundRule) (target : Target) (v : Value) : Except Fault Survey :=
  match h.requireSchema target with
  | .error f => .error f
  | .ok s => (v.canHold s).map fun holds =>
    if holds then { s.survey v with rules } else { rules, own := some (.wrongType s.name v) }

/-- The position of the case that a name selects. -/
def position (name : Value) (cases : List (Value × Option Node)) : Nat :=
  cases.findIdx fun (n, _) => Value.same n name

/-- A choice: the payload of the active case, if one is selected and has a node. -/
def choice (h : Host) (rules : List BoundRule) (cases : List (Value × Option Node)) (tag v : Value) :
    Except Fault Survey :=
  match selectCase h tag v cases with
  | .error f => (Violation.undetermined cases f).map fun x => { rules, own := some x }
  | .ok (name, none) => (Violation.unknownVariant cases name).map fun x => { rules, own := some x }
  | .ok (name, some node) =>
    .ok { rules, branches := Branch.toward [.variant name] (.case (position name cases)) node (variantPayload tag v) }

end Survey

namespace Node

/-- The survey of the absent value: it is a violation unless the node is optional. -/
def surveyAbsent : Node → Survey
  | .wrapper .optional _ _ _ => {}
  | _ => { own := some .required }

/-- The survey of a value that is present. -/
def surveyPresent (h : Host) (v : Value) : Node → Except Fault Survey
  | .scalar rules type => (v.fits type).map fun fits =>
    if fits then { rules } else { own := some (.wrongType (.text type.typeLabel) v) }
  | .wrapper .optional rules inner _ => .ok { rules, branches := Branch.toward [] .inner inner v }
  | .wrapper .sequence rules inner _ => .ok (Survey.sequence rules inner v)
  | .wrapper .mapping rules inner keys => .ok (Survey.mapping rules inner keys v)
  | .nested rules target => Survey.structured h rules target v
  | .variants rules cases tag => Survey.choice h rules cases tag v

/-- The survey of a value by a node. -/
def survey (h : Host) (node : Node) (v : Value) : Except Fault Survey :=
  if v.isAbsent then .ok node.surveyAbsent else node.surveyPresent h v

theorem survey_absent {h : Host} {node : Node} {v : Value} (hv : v.isAbsent = true) :
    node.survey h v = .ok node.surveyAbsent := if_pos hv

theorem survey_present {h : Host} {node : Node} {v : Value} (hv : ¬v.isAbsent = true) :
    node.survey h v = node.surveyPresent h v := if_neg hv

@[simp] theorem branches_surveyAbsent (node : Node) : node.surveyAbsent.branches = [] := by
  unfold surveyAbsent
  split <;> rfl

end Node

namespace Survey

/-- What the survey of a structure says when it says something. -/
theorem structured_eq_ok {h : Host} {rules : List BoundRule} {target : Target} {v : Value} {s : Survey}
    (hs : structured h rules target v = .ok s) :
    ∃ schema holds, h.targetSchema? target = some schema ∧ v.canHold schema = .ok holds ∧
      s = if holds then { schema.survey v with rules } else { rules, own := some (.wrongType schema.name v) } := by
  unfold structured at hs
  split at hs
  · cases hs
  · next schema hschema =>
    obtain ⟨holds, hold, rfl⟩ := Except.map_eq_ok.mp hs
    exact ⟨schema, holds, Host.requireSchema_eq_ok.mp hschema, hold, rfl⟩

/-- What the survey of a choice says when it says something. -/
theorem choice_eq_ok {h : Host} {rules : List BoundRule} {cases : List (Value × Option Node)} {tag v : Value}
    {s : Survey} (hs : choice h rules cases tag v = .ok s) :
    (∃ f x, selectCase h tag v cases = .error f ∧ Violation.undetermined cases f = .ok x ∧
      s = { rules, own := some x }) ∨
    (∃ name x, selectCase h tag v cases = .ok (name, none) ∧ Violation.unknownVariant cases name = .ok x ∧
      s = { rules, own := some x }) ∨
    ∃ name node, selectCase h tag v cases = .ok (name, some node) ∧
      s = { rules, branches := Branch.toward [.variant name] (.case (position name cases)) node
              (variantPayload tag v) } := by
  unfold choice at hs
  split at hs
  · next f hf =>
    obtain ⟨x, hx, rfl⟩ := Except.map_eq_ok.mp hs
    exact .inl ⟨f, x, hf, hx, rfl⟩
  · next name hname =>
    obtain ⟨x, hx, rfl⟩ := Except.map_eq_ok.mp hs
    exact .inr (.inl ⟨name, x, hname, hx, rfl⟩)
  · next name node hname =>
    cases hs
    exact .inr (.inr ⟨name, node, hname, rfl⟩)

end Survey

/-! ### Steps -/

/-- One branch of a survey, kind by kind: how validation goes from a value and its node to the next. -/
inductive Step (h : Host) : Node → Value → Path → Node → Value → Prop where
  | optional {rules node keys v} (hv : ¬v.isAbsent = true) :
    Step h (.wrapper .optional rules (some node) keys) v [] node v
  | element {rules node keys v items i x} (hv : v.elements? = some items) (hi : items[i]? = some x) :
    Step h (.wrapper .sequence rules (some node) keys) v [.index i] node x
  | key {rules inner node kind entries k x} (hm : (k, x) ∈ entries) :
    Step h (.wrapper .mapping rules inner (some node)) (.mapping kind entries) [.key k] node k
  | entry {rules node keys kind entries k x} (hm : (k, x) ∈ entries) :
    Step h (.wrapper .mapping rules (some node) keys) (.mapping kind entries) [.key k] node x
  | field {rules target s v name node x} (hv : ¬v.isAbsent = true) (hs : h.targetSchema? target = some s)
      (hold : v.canHold s = .ok true) (hf : (name, node) ∈ s.fields) (hx : v.field name = .ok x) :
    Step h (.nested rules target) v [FieldSpec.segmentOf name] node x
  | payload {rules cases tag v name node} (hv : ¬v.isAbsent = true)
      (hs : selectCase h tag v cases = .ok (name, some (some node))) :
    Step h (.variants rules cases tag) v [.variant name] node (variantPayload tag v)

/-- A step leads to a shallower value, or to a smaller node at a value that is no deeper. -/
theorem Step.smaller {h : Host} {node m : Node} {v x : Value} {p : Path} (hs : Step h node v p m x) :
    Prod.Lex (· < ·) (· < ·) (x.depth, sizeOf m) (v.depth, sizeOf node) := by
  rw [Prod.lex_def]
  cases hs with
  | optional hv => right; simp; omega
  | element hv hi => exact .inl (Value.depth_lt_of_mem_elements hv (List.mem_of_getElem? hi))
  | key hm | entry hm =>
    have := Value.depth_le_depthEntries hm
    left; simp only [Value.depth]; omega
  | field hv hs hold hf hx => exact .inl (Value.depth_field_lt (Value.depth_pos_of_present hv) hx)
  | @payload rules cases tag v name node hv hs =>
    have := depth_variantPayload_le tag v
    have := size_selectCase hs
    simp only [Node.variants.sizeOf_spec]
    omega

theorem Branch.mem_toward {way : Path} {turn : Turn} {node : Option Node} {v : Value} {b : Branch} :
    b ∈ Branch.toward way turn node v ↔ ∃ m, node = some m ∧ b = ⟨way, turn, m, .ok v⟩ := by
  cases node <;> simp [Branch.toward]

theorem Schema.mem_fieldBranches {v : Value} {fields : List (Value × Node)} {position : Nat} {b : Branch}
    (hb : b ∈ Schema.fieldBranches v fields position) :
    ∃ name, (name, b.node) ∈ fields ∧ b.way = [FieldSpec.segmentOf name] ∧ b.value = v.field name := by
  obtain ⟨⟨⟨name, node⟩, i⟩, hm, rfl⟩ := List.mem_map.mp hb
  exact ⟨name, List.fst_mem_of_mem_zipIdx hm, rfl, rfl⟩

theorem Schema.exists_fieldBranch {v : Value} {fields : List (Value × Node)} {name : Value} {node : Node}
    (hm : (name, node) ∈ fields) (position : Nat) :
    ∃ b ∈ Schema.fieldBranches v fields position,
      b.way = [FieldSpec.segmentOf name] ∧ b.node = node ∧ b.value = v.field name := by
  obtain ⟨i, hi, he⟩ := List.mem_iff_getElem.mp hm
  refine ⟨⟨[FieldSpec.segmentOf name], .field (position + i), node, v.field name⟩, ?_, rfl, rfl, rfl⟩
  refine List.mem_map.mpr ⟨((name, node), position + i), ?_, rfl⟩
  exact List.mk_add_mem_zipIdx_iff_getElem?.mpr (by simp [← he, hi])

theorem Schema.survey_present {s : Schema} {v : Value} (hv : ¬v.isAbsent = true) :
    s.survey v = { branches := Schema.fieldBranches v s.fields 0, checks := s.checks } := if_neg hv

/-- Every branch of a survey whose value can be read is a step. -/
theorem Step.of_branch {h : Host} {node : Node} {v x : Value} {s : Survey} {b : Branch}
    (hs : node.survey h v = .ok s) (hb : b ∈ s.branches) (hx : b.value = .ok x) :
    Step h node v b.way b.node x := by
  by_cases hv : v.isAbsent = true
  · rw [Node.survey_absent hv] at hs
    cases hs
    simp at hb
  · rw [Node.survey_present hv] at hs
    match node with
    | .scalar rules type =>
      obtain ⟨fits, -, rfl⟩ := Except.map_eq_ok.mp hs
      cases fits <;> simp at hb
    | .wrapper .optional rules inner keys =>
      cases hs
      obtain ⟨m, rfl, rfl⟩ := Branch.mem_toward.mp hb
      cases hx
      exact .optional hv
    | .wrapper .sequence rules inner keys =>
      cases hs
      unfold Survey.sequence at hb
      split at hb
      · simp at hb
      · next items hitems =>
        obtain ⟨⟨y, i⟩, hi, hb⟩ := List.mem_flatMap.mp hb
        obtain ⟨m, rfl, rfl⟩ := Branch.mem_toward.mp hb
        cases hx
        exact .element hitems (List.mem_zipIdx_iff_getElem?.mp hi)
    | .wrapper .mapping rules inner keys =>
      cases hs
      unfold Survey.mapping at hb
      split at hb
      · simp at hb
      · next entries hentries =>
        obtain ⟨kind, rfl⟩ := Value.entries?_eq_some hentries
        obtain ⟨⟨k, y⟩, hm, hb⟩ := List.mem_flatMap.mp hb
        rcases List.mem_append.mp hb with hb | hb <;> obtain ⟨m, rfl, rfl⟩ := Branch.mem_toward.mp hb <;> cases hx
        · exact .key hm
        · exact .entry hm
    | .nested rules target =>
      obtain ⟨schema, holds, hschema, hold, rfl⟩ := Survey.structured_eq_ok hs
      cases holds with
      | false => simp at hb
      | true =>
        simp only [if_true, Schema.survey_present hv] at hb
        obtain ⟨name, hf, hway, hvalue⟩ := Schema.mem_fieldBranches hb
        rw [hway]
        exact .field hv hschema hold hf (hvalue ▸ hx)
    | .variants rules cases tag =>
      obtain ⟨f, y, -, -, rfl⟩ | ⟨name, y, -, -, rfl⟩ | ⟨name, node, hname, rfl⟩ := Survey.choice_eq_ok hs
      · simp at hb
      · simp at hb
      · obtain ⟨m, rfl, rfl⟩ := Branch.mem_toward.mp hb
        cases hx
        exact .payload hv hname

/-- Every step is a branch of a survey. -/
theorem Step.exists_branch {h : Host} {node m : Node} {v x : Value} {p : Path} (hs : Step h node v p m x) :
    ∃ s, node.survey h v = .ok s ∧ ∃ b ∈ s.branches, b.way = p ∧ b.node = m ∧ b.value = .ok x := by
  cases hs with
  | optional hv =>
    exact ⟨_, Node.survey_present hv, ⟨[], .inner, m, .ok _⟩, Branch.mem_toward.mpr ⟨_, rfl, rfl⟩, rfl, rfl, rfl⟩
  | @element _ _ _ _ _ i _ hitems hi =>
    have hv : ¬v.isAbsent = true := by
      intro hv
      cases v <;> simp_all [Value.isAbsent, Value.elements?]
    refine ⟨_, Node.survey_present hv, ⟨[.index i], .inner, m, .ok x⟩, ?_, rfl, rfl, rfl⟩
    simp only [Survey.sequence, hitems]
    exact List.mem_flatMap.mpr ⟨(x, i), List.mem_zipIdx_iff_getElem?.mpr hi, Branch.mem_toward.mpr ⟨_, rfl, rfl⟩⟩
  | @key _ _ _ _ _ _ y hm =>
    refine ⟨_, rfl, ⟨[.key x], .keys, m, .ok x⟩, ?_, rfl, rfl, rfl⟩
    exact List.mem_flatMap.mpr ⟨(x, y), hm, List.mem_append_left _ (Branch.mem_toward.mpr ⟨_, rfl, rfl⟩)⟩
  | @entry _ _ _ _ _ k _ hm =>
    refine ⟨_, rfl, ⟨[.key k], .inner, m, .ok x⟩, ?_, rfl, rfl, rfl⟩
    exact List.mem_flatMap.mpr ⟨(k, x), hm, List.mem_append_right _ (Branch.mem_toward.mpr ⟨_, rfl, rfl⟩)⟩
  | @field rules _ s _ _ _ _ hv hs hold hf hx =>
    obtain ⟨b, hb, hway, hnode, hvalue⟩ := Schema.exists_fieldBranch (v := v) hf 0
    refine ⟨{ s.survey v with rules }, ?_, b, ?_, hway, hnode, hvalue.trans hx⟩
    · rw [Node.survey_present hv]
      simp only [Node.surveyPresent, Survey.structured, Host.requireSchema_eq_ok.mpr hs, hold]
      rfl
    · simpa only [Schema.survey_present hv] using hb
  | @payload rules cases tag _ name _ hv hs =>
    have hsurvey : (Node.variants rules cases tag).survey h v = .ok
        { rules, branches := Branch.toward [.variant name] (.case (Survey.position name cases)) (some m)
                  (variantPayload tag v) } := by
      rw [Node.survey_present hv]
      simp only [Node.surveyPresent, Survey.choice, hs]
    exact ⟨_, hsurvey, _, Branch.mem_toward.mpr ⟨_, rfl, rfl⟩, rfl, rfl, rfl⟩

end Conform
