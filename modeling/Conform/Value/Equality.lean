import Conform.Value.Kind

/-!
Equality of values. Numbers of every kind are equal when they stand at one place, so `1`, `1.0` and a
true truth value are; texts, bytes and collections are equal to their own kind only; mappings ignore
order unless both keep one; objects of most classes are equal to themselves only. Inside a collection
a value also counts as equal when it is the very same object (`Value.same`), which matters to undefined
numbers alone. Keys of mappings and members of sets must be hashable.
-/

namespace Conform

namespace Value

/-- The place of a number on the extended line, for values that are real numbers or truth values. -/
def magnitude? : Value → Option Magnitude
  | .bool b => some (.ofInt (if b then 1 else 0))
  | .int n => some (.ofInt n)
  | .float x => some x.magnitude
  | .decimal d => some d.magnitude
  | .fraction num den => some (.ratio num den)
  | .member e _ (.int n) => if e.base = .int then some (.ofInt n) else none
  | _ => none

/-- How many numbers a range has. -/
def rangeLength (start stop step : Int) : Nat :=
  if step = 0 then 0
  else if 0 < step then ((stop - start + step - 1).fdiv step).toNat
  else ((start - stop - step - 1).fdiv (-step)).toNat

def rangeItems (start stop step : Int) : List Value :=
  (List.range (rangeLength start stop step)).map fun (i : Nat) => .int (start + step * i)

/-- Whether two ranges have the same numbers. -/
def sameRange (a b c a' b' c' : Int) : Bool :=
  let n := rangeLength a b c
  n == rangeLength a' b' c' && (n == 0 || (a == a' && (n == 1 || c == c')))

/-- Whether two undefined numbers are one object. -/
def sameUndefined : Value → Value → Bool
  | .float (.nan s), .float (.nan t) => s == t
  | .decimal (.nan s _), .decimal (.nan t _) => s == t
  | .complex z, .complex w => z.isNaN && z == w
  | _, _ => false

/-- Equality of values that hold no others. -/
def scalarEq (a b : Value) : Bool :=
  match a.magnitude?, b.magnitude? with
  | some x, some y => x.same y
  | some x, none => match b with
    | .complex z => (z.magnitude?.map x.same).getD false
    | _ => false
  | none, some y => match a with
    | .complex z => (z.magnitude?.map y.same).getD false
    | _ => false
  | none, none =>
    match a, b with
    | .absent, .absent => true
    | .complex z, .complex w => z.same w
    | .date d, .date e => d == e
    | .moment m, .moment n => ((m.comparable? n).map fun (x, y) => x == y).getD false
    | .bytes _ xs, .bytes _ ys => xs == ys
    | .range a b c, .range a' b' c' => sameRange a b c a' b' c'
    | .pattern s f, .pattern t g => s == t && f == g
    | .function f, .function g => f.name == g.name
    | .cls c _, .cls d _ => c == d
    | .bag s _, .bag t _ => s == t
    | a, b => match a.asText?, b.asText? with
      | some s, some t => s == t
      | _, _ => false

/-- The object that a structural class compares, else the object's identity. -/
def comparesByFields (c d : DeclaredClass) : Option (List String) :=
  if c.serial = d.serial then c.fields else none

mutual

/-- Whether two values are equal. -/
def eq : Value → Value → Bool
  | .sequence k xs, b =>
    match b with
    | .sequence k' ys => k == k' && eqItems xs ys
    | .record r attributes =>
      r.cls == .violations && k != .deque && eqItems xs (attributes.map Prod.snd)
    | _ => false
  | .set _ xs, .set _ ys => xs.length == ys.length && eqAll xs ys
  | .mapping k xs, b =>
    match b with
    | .mapping k' ys =>
      xs.length == ys.length
        && (if k == .ordered && k' == .ordered then eqEntries xs ys else eqEntriesIn xs ys)
    | _ => false
  | .member c n p, b =>
    match b with
    | .member c' n' _ => (c == c' && n == n') || scalarEq (.member c n p) b
    | b => scalarEq (.member c n p) b
  | .object c s own inherited, b =>
    match b with
    | .object c' s' own' inherited' =>
      s == s' || match comparesByFields c c' with
        | none => false
        | some fields => eqFields own (own' ++ inherited') fields
            && eqFields inherited (own' ++ inherited') (fields.filter fun f => !(own.map Prod.fst).contains f)
    | _ => false
  | .record r attributes, b =>
    match b with
    | .record r' attributes' =>
      r.cls == r'.cls && (r.cls.isStructural || r.serial == r'.serial)
        && (!r.cls.comparesAttributes
          || attributes.length == attributes'.length && eqAttributes attributes attributes')
    | .sequence k ys => r.cls == .violations && k != .deque && eqValues attributes ys
    | _ => false
  | a, b => scalarEq a b

/-- Whether two lists are equal item by item. -/
def eqItems : List Value → List Value → Bool
  | [], [] => true
  | x :: xs, y :: ys => (sameUndefined x y || eq x y) && eqItems xs ys
  | _, _ => false

/-- Whether each item is in a list. -/
def eqAll : List Value → List Value → Bool
  | [], _ => true
  | x :: xs, ys => (ys.any fun y => sameUndefined x y || eq x y) && eqAll xs ys

/-- Whether two lists of entries are equal entry by entry. -/
def eqEntries : List (Value × Value) → List (Value × Value) → Bool
  | [], [] => true
  | (k, v) :: xs, (k', v') :: ys =>
    (sameUndefined k k' || eq k k') && (sameUndefined v v' || eq v v') && eqEntries xs ys
  | _, _ => false

/-- Whether each entry is in a list of entries. -/
def eqEntriesIn : List (Value × Value) → List (Value × Value) → Bool
  | [], _ => true
  | (k, v) :: xs, ys =>
    (ys.any fun (k', v') => (sameUndefined k k' || eq k k') && (sameUndefined v v' || eq v v'))
      && eqEntriesIn xs ys

/-- Whether two lists of attributes are equal in order. -/
def eqAttributes : List (String × Value) → List (String × Value) → Bool
  | (_, v) :: xs, (_, v') :: ys => (sameUndefined v v' || eq v v') && eqAttributes xs ys
  | [], _ => true
  | _, [] => true

/-- Whether the attributes with the given names are equal in a list of attributes. -/
def eqFields : List (String × Value) → List (String × Value) → List String → Bool
  | [], _, _ => true
  | (n, v) :: xs, ys, names =>
    (!names.contains n || ((ys.lookup n).map fun v' => sameUndefined v v' || eq v v').getD false)
      && eqFields xs ys names

/-- Whether the values of attributes equal the items of a list. -/
def eqValues : List (String × Value) → List Value → Bool
  | [], [] => true
  | (_, v) :: xs, y :: ys => (sameUndefined v y || eq v y) && eqValues xs ys
  | _, _ => false

end

/-- Whether two values are equal or the very same object: the equality inside collections. -/
def same (a b : Value) : Bool := sameUndefined a b || eq a b

@[simp] theorem same_text (s t : String) : same (.text s) (.text t) = (s == t) := by
  simp [same, eq, sameUndefined, scalarEq, asText?, magnitude?]

/-! ### Keys -/

mutual

/-- The class name of the part that keeps a value from being a key, if there is one. -/
def unhashable? : Value → Option String
  | .bytes true _ => some "bytearray"
  | .sequence .tuple items => unhashableItem? items
  | .sequence k items => some (fullName (.sequence k items))
  | .set false _ => some "set"
  | .mapping k entries => some (fullName (.mapping k entries))
  | .object c _ _ _ => if c.fields.isSome then some c.name else none
  | .record r attributes =>
    if !r.cls.isHashable then some r.cls.name
    else if r.cls == .violation then none
    else if r.cls.isStructural then unhashableAttribute? attributes
    else none
  | _ => none

/-- The first item that keeps a tuple from being a key. -/
def unhashableItem? : List Value → Option String
  | [] => none
  | v :: rest => match v.unhashable? with
    | some n => some n
    | none => unhashableItem? rest

/-- The first attribute that keeps an object from being a key. -/
def unhashableAttribute? : List (String × Value) → Option String
  | [] => none
  | (_, v) :: rest => match v.unhashable? with
    | some n => some n
    | none => unhashableAttribute? rest

end

/-- What stands under a key. -/
def lookup? {α : Type} (key : Value) : List (Value × α) → Option α
  | [] => none
  | (k, a) :: rest => if same k key then some a else lookup? key rest

def elemOf (v : Value) (items : List Value) : Bool := items.any fun w => same w v

/-- Sets what stands under a key; a key that is present keeps its place and its spelling. -/
def assign {α : Type} (key : Value) (a : α) : List (Value × α) → List (Value × α)
  | [] => [(key, a)]
  | (k, b) :: rest => if same k key then (k, a) :: rest else (k, b) :: assign key a rest

/-- The entries of a mapping that is built by setting each pair in turn. -/
def ofPairs (pairs : List (Value × Value)) : List (Value × Value) :=
  pairs.foldl (fun entries (k, v) => assign k v entries) []

/-- The members of a set that is built from a list. -/
def distinct (items : List Value) : List Value :=
  items.foldl (fun seen v => if elemOf v seen then seen else seen ++ [v]) []

theorem lookup?_mem {α : Type} {key : Value} {a : α} : ∀ {entries : List (Value × α)},
    lookup? key entries = some a → ∃ k, (k, a) ∈ entries
  | (k, w) :: rest, h => by
    unfold lookup? at h
    split at h
    · cases h; exact ⟨k, List.mem_cons_self⟩
    · obtain ⟨k', h'⟩ := lookup?_mem h; exact ⟨k', List.mem_cons_of_mem _ h'⟩

end Value
end Conform
