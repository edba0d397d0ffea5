import Conform.Schema.Walk

/-!
Places that validation reaches. `Leads` goes from a schema and a value to a node and a value inside it,
step by step, and gathers the path on the way; `Follows` reads a path on the value alone. Whatever is
reached is reached by following its path, keys of a path are keys of the mapping they stand for, and
positions below a sequence are positions of the sequence.
-/

namespace Conform

/-- What a value is compared with: a node, or the schema that validation starts with. -/
inductive Level where
  | node (node : Node)
  | schema (s : Schema)

namespace Level

/-- The survey of a value by a level. -/
def survey (h : Host) (v : Value) : Level → Except Fault Survey
  | .node n => n.survey h v
  | .schema s => .ok (s.survey v)

/-- The violations of a value by a level. -/
def findings (h : Host) (v : Value) : Level → Except Fault (List Violation)
  | .node n => walk h n v
  | .schema s => s.walk h v

theorem findings_eq (h : Host) (v : Value) (level : Level) :
    level.findings h v = match level.survey h v with
      | .error f => .error f
      | .ok s => s.walk h v := by
  cases level with
  | node n => exact walk_eq h n v
  | schema s => rfl

theorem findings_eq_ok {h : Host} {level : Level} {v : Value} {vs : List Violation}
    (hw : level.findings h v = .ok vs) : ∃ s, level.survey h v = .ok s ∧ s.walk h v = .ok vs := by
  rw [findings_eq] at hw
  split at hw
  · cases hw
  · next s hs => exact ⟨s, hs, hw⟩

/-- How validation goes from a value and its level to the next value and its node. -/
inductive Step (h : Host) : Level → Value → Path → Node → Value → Prop where
  | node {n v p m x} (step : Conform.Step h n v p m x) : Step h (.node n) v p m x
  | field {s v name m x} (hv : ¬v.isAbsent = true) (hf : (name, m) ∈ s.fields)
      (hx : v.field name = .ok x) : Step h (.schema s) v [FieldSpec.segmentOf name] m x

theorem Step.of_branch {h : Host} {level : Level} {v x : Value} {s : Survey} {b : Branch}
    (hs : level.survey h v = .ok s) (hb : b ∈ s.branches) (hx : b.value = .ok x) :
    Step h level v b.way b.node x := by
  cases level with
  | node n => exact .node (Conform.Step.of_branch hs hb hx)
  | schema schema =>
    cases hs
    by_cases hv : v.isAbsent = true
    · simp [Schema.survey, hv] at hb
    · rw [Schema.survey_present hv] at hb
      obtain ⟨name, hf, hway, hvalue⟩ := Schema.mem_fieldBranches hb
      rw [hway]
      exact .field hv hf (hvalue ▸ hx)

theorem Step.exists_branch {h : Host} {level : Level} {v x : Value} {p : Path} {m : Node}
    (step : Step h level v p m x) :
    ∃ s, level.survey h v = .ok s ∧ ∃ b ∈ s.branches, b.way = p ∧ b.node = m ∧ b.value = .ok x := by
  cases step with
  | node step => exact step.exists_branch
  | @field s _ name _ _ hv hf hx =>
    obtain ⟨b, hb, hway, hnode, hvalue⟩ := Schema.exists_fieldBranch (v := v) hf 0
    exact ⟨_, rfl, b, by rwa [Schema.survey_present hv], hway, hnode, hvalue.trans hx⟩

/-- A step adds at most one segment. -/
theorem Step.way {h : Host} {level : Level} {v x : Value} {p : Path} {m : Node} (step : Step h level v p m x) :
    p = [] ∨ ∃ segment, p = [segment] := by
  cases step with
  | node step => cases step with
    | optional => exact .inl rfl
    | element | key | entry | field | payload => exact .inr ⟨_, rfl⟩
  | field => exact .inr ⟨_, rfl⟩

end Level

/-- The case that is selected is one of the cases. -/
theorem selectCase_mem {h : Host} {tag v name : Value} {cases : List (Value × Option Node)} {node : Option Node}
    (hs : selectCase h tag v cases = .ok (name, some node)) : ∃ n, (n, node) ∈ cases :=
  Value.lookup?_mem (selectCase_found hs)

/-! ### Being led -/

/-- The values inside a value that validation reaches, with their levels and by their paths. -/
inductive Leads (h : Host) : Level → Value → Path → Level → Value → Prop where
  | here {level v} : Leads h level v [] level v
  | there {level v p node x q last y} (step : Level.Step h level v p node x)
      (rest : Leads h (.node node) x q last y) : Leads h level v (p ++ q) last y

/-- Every segment of a path is the step from some place on the way to the next. -/
theorem Leads.at_segment {h : Host} {a c : Level} {v y : Value} {path : Path} (leads : Leads h a v path c y) :
    ∀ {p q : Path} {segment : Segment}, path = p ++ segment :: q →
      ∃ b x node z, Leads h a v p b x ∧ Level.Step h b x [segment] node z ∧ Leads h (.node node) z q c y := by
  induction leads with
  | here =>
    intro p q segment hp
    simp at hp
  | @there level v p₁ node x q₁ last y step rest ih =>
    intro p q segment hp
    obtain rfl | ⟨s, rfl⟩ := step.way
    · obtain ⟨b, x', m, z, before, here, after⟩ := ih hp
      exact ⟨b, x', m, z, .there step before, here, after⟩
    · match p with
      | [] =>
        cases hp
        exact ⟨level, v, node, x, .here, step, rest⟩
      | s' :: p' =>
        cases hp
        obtain ⟨b, x', m, z, before, here, after⟩ := ih rfl
        exact ⟨b, x', m, z, .there step before, here, after⟩

/-! ### Following a path -/

/-- One segment of a path, on the value alone: the entry or the attribute of a field, the element or the item
at a position, the key or the value of an entry, or the payload of a variant. What is missing is absent. -/
inductive Follow : Value → Segment → Value → Prop where
  | entryOf {kind entries name} :
    Follow (.mapping kind entries) (.field name) ((Value.lookup? name entries).getD .absent)
  | attribute {v name n} (hv : v.entries? = none) (hn : name.asText? = some n) :
    Follow v (.field name) ((v.attribute? n).getD .absent)
  | element {v items i x} (hitems : v.elements? = some items) (hi : items[i]? = some x) : Follow v (.index i) x
  | entryAt {kind entries name i} (hn : name.asInt? = some i) :
    Follow (.mapping kind entries) ⟨.index, name⟩ ((Value.lookup? name entries).getD .absent)
  | position {v name i} (hv : v.entries? = none) (hn : name.asInt? = some i) :
    Follow v ⟨.index, name⟩ ((v.positional?.bind fun items => Value.atPosition? items i).getD .absent)
  | key {kind entries k x} (hm : (k, x) ∈ entries) : Follow (.mapping kind entries) (.key k) k
  | value {kind entries k x} (hm : (k, x) ∈ entries) : Follow (.mapping kind entries) (.key k) x
  | payload {v name tag} : Follow v (.variant name) (variantPayload tag v)

/-- A path, on the value alone. -/
inductive Follows : Value → Path → Value → Prop where
  | here {v} : Follows v [] v
  | there {v segment x p y} (first : Follow v segment x) (rest : Follows x p y) : Follows v (segment :: p) y

theorem Follows.append {v x y : Value} {p q : Path} (first : Follows v p x) (next : Follows x q y) :
    Follows v (p ++ q) y := by
  induction first with
  | here => exact next
  | there first _ ih => exact .there first (ih next)

theorem Follows.split {v y : Value} {p q : Path} (follows : Follows v (p ++ q) y) :
    ∃ x, Follows v p x ∧ Follows x q y := by
  induction p generalizing v with
  | nil => exact ⟨v, .here, follows⟩
  | cons segment p ih =>
    cases follows with
    | there first rest =>
      obtain ⟨x, before, after⟩ := ih rest
      exact ⟨x, .there first before, after⟩

/-- Following a key starts at a mapping that has it. -/
theorem Follow.key_mem {v x k : Value} (follow : Follow v (.key k) x) :
    ∃ kind entries, v = .mapping kind entries ∧ k ∈ entries.map Prod.fst := by
  cases follow with
  | key hm | value hm => exact ⟨_, _, rfl, List.mem_map_of_mem hm⟩

/-- The only entry of a mapping is found under its name. -/
theorem Value.field_dict (name : String) (v : Value) : (Value.dict [(.text name, v)]).field (.text name) = .ok v := by
  simp [field, requireKey, unhashable?, lookup?, bind, Except.bind, pure, Except.pure]

theorem segmentOf_position {name : Value} {i : Int} (hi : name.asInt? = some i) :
    FieldSpec.segmentOf name = ⟨.index, name⟩ := by
  rw [FieldSpec.segmentOf, hi]

theorem segmentOf_field {name : Value} (hi : name.asInt? = none) : FieldSpec.segmentOf name = .field name := by
  rw [FieldSpec.segmentOf, hi]

/-- The value of a field is what following its segment gives. -/
theorem Follow.of_field {v name x : Value} (hx : v.field name = .ok x) :
    Follow v (FieldSpec.segmentOf name) x := by
  unfold Value.field at hx
  split at hx
  · cases hk : name.requireKey with
    | error f => rw [hk] at hx; cases hx
    | ok u =>
      rw [hk] at hx
      cases hx
      cases hi : name.asInt? with
      | some i =>
        rw [segmentOf_position hi]
        exact .entryAt hi
      | none =>
        rw [segmentOf_field hi]
        exact .entryOf
  · next hv =>
    have hentries : v.entries? = none := by
      cases v <;> first | rfl | exact (hv _ _ rfl).elim
    split at hx
    · next i hi =>
      cases hx
      rw [segmentOf_position hi]
      exact .position hentries hi
    · next hi =>
      split at hx
      · next n hn =>
        cases hx
        rw [segmentOf_field hi]
        exact .attribute hentries hn
      · cases hx

/-- A step follows its path. -/
theorem Level.Step.follows {h : Host} {level : Level} {v x : Value} {p : Path} {m : Node}
    (step : Level.Step h level v p m x) : Follows v p x := by
  cases step with
  | node step => cases step with
    | optional hv => exact .here
    | element hitems hi => exact .there (.element hitems hi) .here
    | key hm => exact .there (.key hm) .here
    | entry hm => exact .there (.value hm) .here
    | field hv hs hold hf hx => exact .there (.of_field hx) .here
    | payload hv hs => exact .there .payload .here
  | field hv hf hx => exact .there (.of_field hx) .here

/-- Whatever validation reaches is reached by following the path. -/
theorem Leads.follows {h : Host} {a b : Level} {v x : Value} {p : Path} (leads : Leads h a v p b x) :
    Follows v p x := by
  induction leads with
  | here => exact .here
  | there step _ ih => exact step.follows.append ih

/-! ### Keys and positions -/

/-- The elements of a value are as many as its length. -/
theorem Value.length?_eq_of_elements? {v : Value} {items : List Value} (h : v.elements? = some items) :
    v.length? = some items.length := by
  unfold Value.elements? at h
  split at h
  · cases h; simp [Value.length?, rangeItems]
  · cases h; rfl
  · cases h; rfl
  · cases h; rfl
  · cases h; simp [Value.length?]
  · split at h
    · next hr => cases h; simp [Value.length?, hr]
    · cases h
  · cases h

/-- A key in the path of a place is a key of the mapping that the path before it leads to. -/
theorem Leads.key_mem {h : Host} {a b : Level} {v x : Value} {p q : Path} {k : Value}
    (leads : Leads h a v (p ++ .key k :: q) b x) :
    ∃ kind entries, Follows v p (.mapping kind entries) ∧ k ∈ entries.map Prod.fst := by
  obtain ⟨y, before, after⟩ := leads.follows.split
  cases after with
  | there first _ =>
    obtain ⟨kind, entries, rfl, hk⟩ := first.key_mem
    exact ⟨kind, entries, before, hk⟩

/-- A step from a sequence goes to a position below its length. -/
theorem Level.Step.position_lt {h : Host} {rules : List BoundRule} {inner keys : Option Node} {v x : Value}
    {segment : Segment} {m : Node}
    (step : Level.Step h (.node (.wrapper .sequence rules inner keys)) v [segment] m x) :
    ∃ i n, segment = .index i ∧ v.length? = some n ∧ i < n := by
  cases step with
  | node step => cases step with
    | @element _ _ _ _ items i _ hitems hi =>
      exact ⟨i, items.length, rfl, Value.length?_eq_of_elements? hitems, (List.getElem?_eq_some_iff.mp hi).1⟩

end Conform
