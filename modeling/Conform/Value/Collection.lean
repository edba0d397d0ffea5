import Conform.Value.Order

/-!
Looking into values: lengths, elements, membership, attributes and positions. What is found in a value
is shallower than the value.
-/

namespace Conform

namespace Value

/-- The length of a value that has one. -/
def length? : Value → Option Nat
  | .text s => some s.length
  | .member e _ (.text s) => if e.base = .text then some s.length else none
  | .bytes _ bs => some bs.length
  | .range start stop step => some (rangeLength start stop step)
  | .sequence _ items | .bag _ items | .set _ items => some items.length
  | .mapping _ entries => some entries.length
  | .cls (.enumeration _) attributes => some attributes.length
  | .record r attributes =>
    if r.cls = .violations ∨ r.cls = .table then some attributes.length else none
  | _ => none

/-- Whether a value counts as true: numbers other than zero, what is not empty, and all else. -/
def truthy (v : Value) : Bool :=
  match v with
  | .absent => false
  | .bool b => b
  | .int n => n != 0
  | .float x => !x.isZero
  | .complex z => !z.isZero
  | .decimal d => !d.isZero
  | .fraction num _ => num != 0
  | .member e _ (.int n) => e.base != .int || n != 0
  | .cls .. => true
  | .record r attributes =>
    if r.cls = .report then (attributes.lookup "valid").any fun v => v matches .bool true
    else (v.length?.map fun n => n != 0).getD true
  | v => (v.length?.map fun n => n != 0).getD true

/-- The elements of a collection of elements, in order: not those of texts, bytes and mappings. -/
def elements? : Value → Option (List Value)
  | .range start stop step => some (rangeItems start stop step)
  | .sequence _ items | .bag _ items | .set _ items => some items
  | .cls (.enumeration _) attributes => some (attributes.map Prod.snd)
  | .record r attributes =>
    if r.cls = .violations ∨ r.cls = .table then some (attributes.map Prod.snd) else none
  | _ => none

/-- The items that iterating over a value gives; a mapping gives its keys. -/
def iterate? : Value → Option (List Value)
  | .text s => some (s.toList.map fun c => .text (String.singleton c))
  | .member e _ (.text s) =>
    if e.base = .text then some (s.toList.map fun c => .text (String.singleton c)) else none
  | .bytes _ bs => some (bs.map fun b => .int b.toNat)
  | .mapping _ entries => some (entries.map Prod.fst)
  | v => v.elements?

/-- Whether a value has a length, items and members. -/
def isCollection (v : Value) : Bool := v.iterate?.isSome

/-- Fails when a value cannot be a key. -/
def requireKey (v : Value) : Except Fault Unit :=
  match v.unhashable? with
  | some c => .error (.unhashable c)
  | none => .ok ()

/-- Whether some stretch of the second list is the first. -/
def isInfix {α : Type} [BEq α] (xs : List α) : List α → Bool
  | [] => xs.isEmpty
  | y :: ys => xs.isPrefixOf (y :: ys) || isInfix xs ys

/-- Whether a container has a member. -/
def contains (container v : Value) : Except Fault Bool :=
  match container with
  | .text s => match v.asText? with
    | some t => .ok (isInfix t.toList s.toList)
    | none => .error (.textMember v.fullName)
  | .bytes _ bs => match v with
    | .bytes _ xs => .ok (isInfix xs bs)
    | v => match v.asInt? with
      | some n => if 0 ≤ n ∧ n < 256 then .ok (bs.any fun b => b.toNat == n.toNat) else .error .byteRange
      | none => .error (.byteMember v.fullName)
  | .set _ items => match v with
    | .set false xs => .ok (elemOf (.set true xs) items)
    | v => do v.requireKey; return elemOf v items
  | .mapping _ entries => do v.requireKey; return (lookup? v entries).isSome
  | .cls (.enumeration e) attributes => match v with
    | .member e' n _ => .ok (e == e' && (attributes.lookup n).isSome)
    | v => .error (.enumMember v.className)
  | .record r attributes =>
    if r.cls = .table then .ok (match v with
      | .text s => (attributes.lookup s).isSome
      | _ => false)
    else if r.cls = .violations then .ok (elemOf v (attributes.map Prod.snd))
    else .error (.notContainer r.cls.name)
  | .member e n p => match container.asText?, v.asText? with
    | some s, some t => .ok (isInfix t.toList s.toList)
    | some _, none => .error (.textMember v.fullName)
    | none, _ => .error (.notContainer (Value.member e n p).className)
  | container => match container.elements? with
    | some items => .ok (elemOf v items)
    | none => .error (.notContainer container.fullName)

/-- The attribute of a value with a given name; only objects, classes, members and the engine's own
objects have attributes. -/
def attribute? (v : Value) (name : String) : Option Value :=
  match v with
  | .object _ _ own inherited => match own.lookup name with
    | some w => some w
    | none => inherited.lookup name
  | .cls _ attributes => attributes.lookup name
  | .member _ n payload =>
    if name = "name" then some (.text n) else if name = "value" then some payload else none
  | .record r attributes =>
    if r.cls = .violations ∨ r.cls = .table then none else attributes.lookup name
  | _ => none

/-- The name that a class or a function reports of itself. -/
def declaredName? : Value → Option String
  | .cls c _ => some c.name
  | .function f => f.label
  | _ => none

def typeLabel (type : Value) : String := type.declaredName?.getD type.str

/-- The items that a position can address: those of sequences that are no text and no read-only bytes. -/
def positional? : Value → Option (List Value)
  | .sequence _ items => some items
  | .range start stop step => some (rangeItems start stop step)
  | .bytes true bs => some (bs.map fun b => .int b.toNat)
  | .record r attributes => if r.cls = .violations then some (attributes.map Prod.snd) else none
  | _ => none

/-- The item at a position; negative positions count from the end. -/
def atPosition? {α : Type} (items : List α) (i : Int) : Option α :=
  if i < 0 then (if -(items.length : Int) ≤ i then items[(i + items.length).toNat]? else none)
  else items[i.toNat]?

/-! ### What is found in a value is shallower -/

theorem rangeItems_depth {start stop step : Int} {v : Value} (h : v ∈ rangeItems start stop step) :
    v.depth = 1 := by
  unfold rangeItems at h
  obtain ⟨i, -, rfl⟩ := List.mem_map.mp h
  simp [depth]

theorem depth_le_of_mem_map_snd {v : Value} {attributes : List (String × Value)}
    (h : v ∈ attributes.map Prod.snd) : v.depth ≤ depthAttributes attributes := by
  obtain ⟨⟨n, w⟩, hw, rfl⟩ := List.mem_map.mp h
  exact depth_le_depthAttributes hw

theorem depth_lt_of_mem_elements {v x : Value} {items : List Value} (h : v.elements? = some items)
    (hx : x ∈ items) : x.depth < v.depth := by
  unfold elements? at h
  split at h
  · cases h; have := rangeItems_depth hx; simp [depth, this]
  · cases h; have := depth_le_depthItems hx; simp only [depth]; omega
  · cases h; have := depth_le_depthItems hx; simp only [depth]; omega
  · cases h; have := depth_le_depthItems hx; simp only [depth]; omega
  · cases h; have := depth_le_of_mem_map_snd hx; simp only [depth]; omega
  · split at h
    · cases h; have := depth_le_of_mem_map_snd hx; simp only [depth]; omega
    · cases h
  · cases h

theorem lookup_mem {n : String} {v : Value} : ∀ {attributes : List (String × Value)},
    attributes.lookup n = some v → ∃ n', (n', v) ∈ attributes
  | (n', w) :: rest, h => by
    rw [List.lookup_cons] at h
    split at h
    · cases h; exact ⟨n', List.mem_cons_self⟩
    · obtain ⟨n'', h'⟩ := lookup_mem h; exact ⟨n'', List.mem_cons_of_mem _ h'⟩

theorem depth_le_of_lookup {n : String} {v : Value} {attributes : List (String × Value)}
    (h : attributes.lookup n = some v) : v.depth ≤ depthAttributes attributes := by
  obtain ⟨_, h'⟩ := lookup_mem h
  exact depth_le_depthAttributes h'

theorem atPosition?_mem {α : Type} {items : List α} {i : Int} {x : α} (h : atPosition? items i = some x) :
    x ∈ items := by
  unfold atPosition? at h
  split at h
  · split at h
    · exact List.mem_of_getElem? h
    · cases h
  · exact List.mem_of_getElem? h

theorem depth_lt_of_positional {v x : Value} {items : List Value} (h : v.positional? = some items)
    (hx : x ∈ items) : x.depth < v.depth := by
  unfold positional? at h
  split at h
  · cases h; have := depth_le_depthItems hx; simp only [depth]; omega
  · cases h; have := rangeItems_depth hx; simp [depth, this]
  · cases h; obtain ⟨b, -, rfl⟩ := List.mem_map.mp hx; simp [depth]
  · split at h
    · cases h; have := depth_le_of_mem_map_snd hx; simp only [depth]; omega
    · cases h
  · cases h

theorem depth_lt_of_attribute {v w : Value} {n : String} (h : v.attribute? n = some w) :
    w.depth < v.depth := by
  unfold attribute? at h
  split at h
  · split at h
    next hl => cases h; have := depth_le_of_lookup hl; simp only [depth]; omega
    next => have := depth_le_of_lookup h; simp only [depth]; omega
  · have := depth_le_of_lookup h; simp only [depth]; omega
  · split at h
    · cases h; simp [depth]
    · split at h
      · cases h; simp [depth]
      · cases h
  · split at h
    · cases h
    · have := depth_le_of_lookup h; simp only [depth]; omega
  · cases h

end Value
end Conform
