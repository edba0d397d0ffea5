import Conform.Constraint.Builtin

/-!
How validation reads a value: the value of a field, whether a value is of a class, whether it can hold
the fields of a schema, and which of several variants it is. Reading a field or a payload never leads
to a deeper value.
-/

namespace Conform

namespace Value

/-- The value of a field: the entry of a mapping, the item at a position, or an attribute; absent when
there is none. -/
def field (v name : Value) : Except Fault Value :=
  match v with
  | .mapping _ entries => do
    name.requireKey
    return (lookup? name entries).getD .absent
  | v =>
    match name.asInt? with
    | some i => .ok ((v.positional?.bind fun items => atPosition? items i).getD .absent)
    | none => match name.asText? with
      | some n => .ok ((v.attribute? n).getD .absent)
      | none => .error (.attributeName name.fullName)

/-- Whether a value is of a declared class. No class fits every value, and so does the class of all
objects; truth values do not count as numbers, and whole numbers count as floating ones. -/
def fits (v type : Value) : Except Fault Bool :=
  match type with
  | .absent => .ok true
  | .cls c _ =>
    if c = .builtin .object then .ok true
    else if v.isBuiltin .bool && (c == .builtin .int || c == .builtin .float || c == .builtin .decimal) then
      .ok false
    else if c == .builtin .float && v.isBuiltin .int then .ok true
    else match v.isInstance? c with
      | some b => .ok b
      | none => .error .anyInstance
  | _ => .error .notAnInstanceClass

def entries? : Value → Option (List (Value × Value))
  | .mapping _ entries => some entries
  | _ => none

/-- Whether a value has some field by position or by attribute. -/
def hasField (v name : Value) : Except Fault Bool :=
  match name.asInt? with
  | some _ => .ok v.positional?.isSome
  | none => match name.asText? with
    | some n => .ok (v.attribute? n).isSome
    | none => .error (.attributeName name.fullName)

/-- Whether a value has one of some fields. -/
def hasSomeField (v : Value) : List (Value × Node) → Except Fault Bool
  | [] => .ok false
  | (name, _) :: rest => do if ← v.hasField name then return true else v.hasSomeField rest

/-- Whether a value is an instance of a schema's class, if it has one. -/
def isTargetInstance (v type : Value) : Except Fault Bool :=
  match type with
  | .absent => .ok false
  | .cls c _ => match v.isInstance? c with
    | some b => .ok b
    | none => .error .anyInstance
  | _ => .error .notAnInstanceClass

/-- Whether a value can hold the fields of a schema. -/
def canHold (v : Value) (s : Schema) : Except Fault Bool := do
  if s.fields.isEmpty || v.isMapping then return true
  if ← v.isTargetInstance s.targetType then return true
  v.hasSomeField s.fields

end Value

/-- The payload of a variant: the value itself, or what a member of an enumeration carries when the
member says which variant it is. -/
def variantPayload (tag v : Value) : Value :=
  if tag.isCallable || tag.asText?.isSome then v
  else match v with
    | .member _ _ payload => payload
    | v => v

/-- The name of the active variant: what a tag function gives, the field that a tag names, the name of a
member, or the name of the value's class. -/
def variantName (h : Host) (tag v : Value) : Except Fault Outcome :=
  if tag.isCallable then h.callValue tag [v]
  else match tag.asText? with
    | some t => match v with
      | .mapping _ entries => .ok (.value ((Value.lookup? tag entries).getD .absent))
      | v => .ok (.value ((v.attribute? t).getD .absent))
    | none => match v with
      | .member _ n _ => .ok (.value (.text n))
      | v => .ok (.value (.text v.className))

/-- Selects a variant: its name, and its case if there is one of that name. A name that cannot be a key
selects nothing. -/
def selectCase (h : Host) (tag v : Value) (cases : List (Value × Option Node)) :
    Except Fault (Value × Option (Option Node)) := do
  match ← variantName h tag v with
  | .report _ => .error (.unhashable "ValidationResult")
  | .value name =>
    name.requireKey
    return (name, Value.lookup? name cases)

/-! ### Reading leads to shallower values -/

namespace Value

theorem depth_pos_of_present {v : Value} (h : ¬v.isAbsent = true) : 0 < v.depth := by
  apply depth_pos
  rintro rfl
  exact h rfl

theorem depth_lookup_lt {k : MappingKind} {name : Value} {entries : List (Value × Value)} :
    ((lookup? name entries).getD .absent).depth < (Value.mapping k entries).depth := by
  cases hl : lookup? name entries with
  | none => simp only [Option.getD_none, depth]; omega
  | some w =>
    obtain ⟨_, hm⟩ := lookup?_mem hl
    have := (depth_le_depthEntries hm).2
    simp only [Option.getD_some, depth]; omega

theorem depth_positional_lt {v : Value} {i : Int} (hv : 0 < v.depth) :
    ((v.positional?.bind fun items => atPosition? items i).getD .absent).depth < v.depth := by
  cases hp : v.positional? with
  | none => simpa [depth] using hv
  | some items =>
    cases ha : atPosition? items i with
    | none => simpa [depth, ha] using hv
    | some x => simpa [ha] using depth_lt_of_positional hp (atPosition?_mem ha)

theorem depth_attribute_lt {v : Value} {n : String} (hv : 0 < v.depth) :
    ((v.attribute? n).getD .absent).depth < v.depth := by
  cases ha : v.attribute? n with
  | none => simpa [depth] using hv
  | some w => simpa using depth_lt_of_attribute ha

/-- The value of a field is shallower than the value that has it. -/
theorem depth_field_lt {v name w : Value} (hv : 0 < v.depth) (h : v.field name = .ok w) :
    w.depth < v.depth := by
  unfold field at h
  split at h
  · cases hk : name.requireKey with
    | error f => rw [hk] at h; cases h
    | ok u => rw [hk] at h; cases h; exact depth_lookup_lt
  · split at h
    · cases h; exact depth_positional_lt hv
    · split at h
      · cases h; exact depth_attribute_lt hv
      · cases h

theorem depthEntries_lt {v : Value} {entries : List (Value × Value)} (h : v.entries? = some entries) :
    depthEntries entries < v.depth := by
  unfold entries? at h
  split at h
  · cases h; simp only [depth]; omega
  · cases h

theorem depthItems_lt_of_forall {n : Nat} : ∀ {items : List Value}, 0 < n → (∀ x ∈ items, x.depth < n) →
    depthItems items < n
  | [], hn, _ => hn
  | x :: rest, hn, h => by
    have := depthItems_lt_of_forall hn fun y hy => h y (List.mem_cons_of_mem _ hy)
    have := h x List.mem_cons_self
    unfold depthItems; omega

/-- The elements of a value are shallower than the value. -/
theorem depthItems_lt {v : Value} {items : List Value} (h : v.elements? = some items) (hv : 0 < v.depth) :
    depthItems items < v.depth :=
  depthItems_lt_of_forall hv fun _ hx => depth_lt_of_mem_elements h hx

end Value

/-- A payload is at most as deep as its value. -/
theorem depth_variantPayload_le (tag v : Value) : (variantPayload tag v).depth ≤ v.depth := by
  unfold variantPayload
  split
  · exact Nat.le_refl _
  · split
    · simp only [Value.depth]; omega
    · exact Nat.le_refl _

/-- The node of a case is smaller than the list of cases. -/
theorem sizeOf_lookup? {name : Value} {node : Node} : ∀ {cases : List (Value × Option Node)},
    Value.lookup? name cases = some (some node) → sizeOf node < sizeOf cases
  | (n, payload) :: rest, h => by
    unfold Value.lookup? at h
    split at h
    · cases h; simp; omega
    · have := sizeOf_lookup? h; simp; omega

/-- What is selected is what stands under the name. -/
theorem selectCase_found {h : Host} {tag v name : Value} {cases : List (Value × Option Node)}
    {found : Option (Option Node)} (hs : selectCase h tag v cases = .ok (name, found)) :
    Value.lookup? name cases = found := by
  simp only [selectCase, bind, Except.bind] at hs
  split at hs
  · cases hs
  · split at hs
    · cases hs
    · split at hs
      · cases hs
      · cases hs
        rfl

/-- The node of a selected case is smaller than the list of cases. -/
theorem size_selectCase {h : Host} {tag v : Value} {cases : List (Value × Option Node)}
    {name : Value} {node : Node} (hs : selectCase h tag v cases = .ok (name, some (some node))) :
    sizeOf node < sizeOf cases := sizeOf_lookup? (selectCase_found hs)

end Conform
