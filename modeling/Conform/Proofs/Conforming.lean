import Conform.Proofs.Hints
import Conform.Proofs.Reference

/-!
Hints and the values that conform to them. A hint without declarations and without classes that carry a schema
suggests a shape that compiles, and a value that conforms to the hint is accepted by it but for one thing: an
absent value is required to be present wherever the hint that stands there is not optional. Elements of a
collection, and values of a mapping, of which a hint says nothing, are such places, and so are the positions of
a tuple, whose own hints are not followed.
-/

namespace Conform

/-- Whether a value is of a class as hints mean it. Truth values are no numbers, whole numbers are floating ones
too, and everything is of the marker for any class. -/
def Value.belongsTo (v : Value) : ClassRef → Bool
  | .any => true
  | .builtin .int => v.isBuiltin .int && !v.isBuiltin .bool
  | .builtin .float => v.isBuiltin .float || v.isBuiltin .int && !v.isBuiltin .bool
  | c => v.isInstance? c == some true

/-- A place in a value: the way to it, the hint that stands there, and the value at it. -/
structure Place where
  way : Path
  hint : Hint
  value : Value

namespace Place

def under (p : Path) (place : Place) : Place := { place with way := p ++ place.way }

/-- The places in the elements of a collection. -/
def ofElements (within : Value → List Place) (v : Value) : List Place :=
  (v.elements?.getD []).zipIdx.flatMap fun (x, i) => (within x).map (under [.index i])

/-- The places in the entries of a mapping, each under its key. -/
def ofEntries (within : Value → Value → List Place) (v : Value) : List Place :=
  (v.entries?.getD []).flatMap fun (k, x) => (within k x).map (under [.key k])

end Place

namespace Hint

/-- What stands where a hint says nothing. -/
def anything : Hint := .cls (.builtin .object) []

/-- The hint of the elements of a collection. -/
def element (args : List Hint) : Hint := args.head?.getD anything

/-- The values that conform to a hint. The class of a collection is not asked, and of a tuple only the positions
that have a hint. -/
inductive Conforms : Hint → Value → Prop where
  | nothing {v} (hv : v.isAbsent = true) : Conforms .nothing v
  | cls {c attributes v} (hv : v.belongsTo c = true) : Conforms (.cls c attributes) v
  | elements {name args v items} (hitems : v.elements? = some items) (hx : ∀ x ∈ items, Conforms (element args) x) :
      Conforms (.generic (.elements name) args) v
  | positions {args v items} (hitems : v.elements? = some items)
      (hx : ∀ (i : Nat) (a : Hint) (x : Value), args[i]? = some a → items[i]? = some x → Conforms a x) : Conforms (.generic .positions args) v
  | entries {name args v entries} (hentries : v.entries? = some entries)
      (hk : ∀ k w, args = [k, w] → ∀ e ∈ entries, Conforms k e.1)
      (hw : ∀ k w, args = [k, w] → ∀ e ∈ entries, Conforms w e.2) : Conforms (.generic (.entries name) args) v
  | member {members m v} (hm : m ∈ members) (hv : Conforms m v) : Conforms (.union members) v

/-- Whether a hint is optional. -/
def admitsAbsent : Hint → Bool
  | .union members => members.any isAbsentClass
  | _ => false

/-- A place of which nothing is said. -/
def loosely (v : Value) : List Place := [⟨[], anything, v⟩]

/-- The places below a value of a class that is known by its name alone. -/
def placesOfClass : ClassRef → Value → List Place
  | .builtin .list | .builtin .tuple | .builtin .set | .builtin .frozenset | .builtin .deque => Place.ofElements loosely
  | .builtin .dict | .builtin .orderedDict => Place.ofEntries fun _ => loosely
  | _ => fun _ => []

mutual

/-- The places of a value where a hint stands, each before those below it. Below a union stands the hint of its
only member besides the absent value, and nothing when there are several. -/
def places : Hint → Value → List Place
  | .cls c attributes, v => ⟨[], .cls c attributes, v⟩ :: placesOfClass c v
  | .generic (.elements name) args, v => ⟨[], .generic (.elements name) args, v⟩ :: Place.ofElements (placesFirst args) v
  | .generic .positions args, v => ⟨[], .generic .positions args, v⟩ :: Place.ofElements loosely v
  | .generic (.entries name) args, v =>
    ⟨[], .generic (.entries name) args, v⟩ :: Place.ofEntries (fun k x => placesEntry args k x) v
  | .union members, v =>
    ⟨[], .union members, v⟩ :: if v.isAbsent then [] else match placesPresent members v with
      | [below] => below
      | _ => []
  | hint, v => [⟨[], hint, v⟩]

/-- The places of an element, by the first of some hints. -/
def placesFirst : List Hint → Value → List Place
  | [], v => loosely v
  | a :: _, v => a.places v

/-- The places of an entry, by the two hints of a mapping; with any other number a key is no place. -/
def placesEntry : List Hint → Value → Value → List Place
  | [k, w], x, y => k.places x ++ w.places y
  | _, _, y => loosely y

/-- The places of a value by each of the members that are not the absent value. -/
def placesPresent : List Hint → Value → List (List Place)
  | [], _ => []
  | m :: rest, v => if m.isAbsentClass then placesPresent rest v else m.places v :: placesPresent rest v

end

/-- The values that are required where they are absent, among some places. -/
def absences (ps : List Place) : List Violation :=
  (ps.filter fun p => p.value.isAbsent && !p.hint.admitsAbsent).map fun p => Violation.required.under p.way

/-- What a hint requires of a value that conforms to it. -/
def missing (hint : Hint) (v : Value) : List Violation := absences (hint.places v)

def isAny : Hint → Bool
  | .cls c _ => c == .any
  | _ => false

/-- No value but the absent one stands at the marker for any class. -/
def Askable (hint : Hint) (v : Value) : Prop := ∀ p ∈ hint.places v, p.hint.isAny = true → p.value.isAbsent = true

/-! ### Places -/

section Places
variable {h : Host} {owner : Option ClassRef} {v : Value}

theorem missing_cls (c : ClassRef) (attributes : List (String × Value)) (v : Value) :
    missing (.cls c attributes) v = absences (⟨[], .cls c attributes, v⟩ :: placesOfClass c v) := rfl

theorem missing_elements (name : String) (args : List Hint) (v : Value) : missing (.generic (.elements name) args) v =
    absences (⟨[], .generic (.elements name) args, v⟩ :: Place.ofElements (placesFirst args) v) := rfl

theorem missing_positions (args : List Hint) (v : Value) : missing (.generic .positions args) v =
    absences (⟨[], .generic .positions args, v⟩ :: Place.ofElements loosely v) := rfl

theorem missing_entries (name : String) (args : List Hint) (v : Value) : missing (.generic (.entries name) args) v =
    absences (⟨[], .generic (.entries name) args, v⟩ :: Place.ofEntries (fun k x => placesEntry args k x) v) := rfl

@[simp] theorem absences_nil : absences [] = [] := rfl

@[simp] theorem absences_append (ps qs : List Place) : absences (ps ++ qs) = absences ps ++ absences qs := by
  simp [absences]

theorem absences_under (w : Path) (ps : List Place) : absences (ps.map (Place.under w)) = (absences ps).map (Violation.under w) := by
  simp [absences, List.filter_map, Function.comp_def, Place.under, Violation.under_under]

theorem absences_flatMap {α : Type} (xs : List α) (f : α → List Place) : absences (xs.flatMap f) = xs.flatMap fun x => absences (f x) := by
  induction xs with
  | nil => rfl
  | cons x rest ih => rw [List.flatMap_cons, absences_append, ih, List.flatMap_cons]

/-- A value that is present is not missing where it stands. -/
theorem absences_cons_present {way : Path} {hint : Hint} {ps : List Place} (hv : ¬v.isAbsent = true) :
    absences (⟨way, hint, v⟩ :: ps) = absences ps := by
  simp [absences, hv]

theorem placesFirst_eq (args : List Hint) : placesFirst args = (element args).places := by
  cases args with
  | nil =>
    funext v
    rfl
  | cons a rest => rfl

/-- Nothing stands below an absent value. -/
theorem places_of_absent (hint : Hint) (hv : v.isAbsent = true) : hint.places v = [⟨[], hint, v⟩] := by
  obtain rfl : v = .absent := by
    cases v <;> first | rfl | cases hv
  cases hint with
  | cls c attributes =>
    have none : placesOfClass c .absent = [] := by
      unfold placesOfClass
      split <;> rfl
    rw [places, none]
  | generic origin args => cases origin <;> rfl
  | _ => rfl

/-- What is found in turn is what each finds, one after the other. -/
theorem inTurn_map_ok {α β : Type} {xs : List β} {find : β → Except Fault (List α)} {f : β → List α}
    (each : ∀ x ∈ xs, find x = .ok (f x)) : inTurn (xs.map find) = .ok (xs.flatMap f) := by
  induction xs with
  | nil => rfl
  | cons x rest ih =>
    rw [List.map_cons, inTurn, each x List.mem_cons_self, ih fun y hy => each y (List.mem_cons_of_mem _ hy)]
    rfl

theorem present_of_elements {items : List Value} (hitems : v.elements? = some items) : ¬v.isAbsent = true := by
  cases v <;> simp_all [Value.isAbsent, Value.elements?]

theorem present_of_entries {entries : List (Value × Value)} (hentries : v.entries? = some entries) :
    ¬v.isAbsent = true := by
  cases v <;> simp_all [Value.isAbsent, Value.entries?]

/-- A collection whose elements are found right is. -/
theorem walk_elements {n : Node} {within : Value → List Place} {items : List Value} (hitems : v.elements? = some items)
    (each : ∀ x ∈ items, walk h n x = .ok (absences (within x))) :
    walk h (.wrapper .sequence [] (some n) none) v = .ok (absences (Place.ofElements within v)) := by
  rw [walk_sequence (present_of_elements hitems) hitems, Place.ofElements, hitems, absences_flatMap]
  refine (andThen_ok_nil _).trans (inTurn_map_ok ?_)
  rintro ⟨x, i⟩ hx
  change inward [.index i] (walk h n x) = .ok (absences ((within x).map (Place.under [.index i])))
  rw [each x (List.fst_mem_of_mem_zipIdx hx), absences_under]
  rfl

/-- A mapping whose entries are found right is. -/
theorem walk_entries {n : Node} {keys : Option Node} {within : Value → Value → List Place}
    {entries : List (Value × Value)} (hentries : v.entries? = some entries)
    (each : ∀ e ∈ entries, (match keys with
      | none => walk h n e.2
      | some keys => andThen (walk h keys e.1) (walk h n e.2)) = .ok (absences (within e.1 e.2))) :
    walk h (.wrapper .mapping [] (some n) keys) v = .ok (absences (Place.ofEntries within v)) := by
  obtain ⟨kind, rfl⟩ := Value.entries?_eq_some hentries
  rw [walk_mapping, Place.ofEntries, hentries, absences_flatMap]
  refine (andThen_ok_nil _).trans (inTurn_map_ok ?_)
  rintro ⟨k, x⟩ hx
  rw [absences_under]
  exact congrArg (inward [.key k]) (each (k, x) hx)

end Places

/-! ### Compiling what is inferred -/

/-- A shape compiles to a node wherever it stands. -/
def Compiles (shape : Shape) (n : Node) : Prop := ∀ (w : Workshop) (site : Site), w.compile site shape = .ok n

theorem Compiles.anyScalar : Compiles anyScalar (.scalar [] .absent) := fun _ _ => rfl

theorem Compiles.scalar {c : ClassRef} {attributes : List (String × Value)} :
    Compiles (.scalar (.cls c attributes) []) (.scalar [] (.cls c attributes)) := fun _ _ => rfl

theorem Compiles.compileShape {s : Shape} {n : Node} (hs : Compiles s n) (b : SchemaBuilder) (h : Host) (t : FunctionTable) :
    b.compileShape h t (.shape s) = .ok n := hs _ _

theorem Compiles.wrapper {s : Shape} {n : Node} (wr : Wrapper) (hs : Compiles s n) :
    Compiles (.wrapper wr (some s) none []) (.wrapper wr [] (some n) none) := by
  intro w site
  cases wr <;> simp [Shape.wrapper, Wrapper.kind, Workshop.compile, Workshop.compileInner, Workshop.compileKeys, hs w site,
    Workshop.bindRules, Shape.rules, BoundRule.checkConflicts, pure, Except.pure, bind, Except.bind]

theorem Compiles.entries {s t : Shape} {n k : Node} (hs : Compiles s n) (ht : Compiles t k) :
    Compiles (.wrapper .mapping (some s) (some t) []) (.wrapper .mapping [] (some n) (some k)) := by
  intro w site
  simp [Shape.wrapper, Wrapper.kind, Workshop.compile, Workshop.compileInner, Workshop.compileKeys, hs w site, ht w site,
    Workshop.bindRules, Shape.rules, BoundRule.checkConflicts, pure, Except.pure, bind, Except.bind]

/-! ### Conforming values -/

section Conforming
variable {h : Host} {owner : Option ClassRef} {v : Value}

/-- What is of a class as hints mean it fits the class. -/
theorem fits_of_belongsTo {c : ClassRef} {attributes : List (String × Value)} (hc : c ≠ .any) (hv : v.belongsTo c = true) :
    v.fits (.cls c attributes) = .ok true := by
  unfold Value.belongsTo at hv
  split at hv
  · exact absurd rfl hc
  · simp_all [Value.fits, Value.isInstance?]
  · have truth : v.isBuiltin .bool = false := by
      cases v <;> simp_all [Value.isBuiltin]
    rcases Bool.or_eq_true_iff.mp hv with float | int
    · simp [Value.fits, Value.isInstance?, float, truth]
    · simp_all [Value.fits]
  · next int float =>
    have holds : v.isInstance? c = some true := by simpa using hv
    have decimal : v.isBuiltin .bool = true → c ≠ .builtin .decimal := by
      rintro truth rfl
      cases v <;> simp_all [Value.isInstance?, Value.isBuiltin]
    unfold Value.fits
    dsimp only
    split
    · rfl
    · rw [if_neg (by simpa using fun truth => ⟨⟨int, float⟩, decimal truth⟩), if_neg (by simpa using fun h => absurd h float),
        holds]

/-- A scalar finds nothing in a value of its class, unless nothing can be asked of the class. -/
theorem walk_class {c : ClassRef} {attributes : List (String × Value)} (hv : ¬v.isAbsent = true) (hc : c ≠ .any)
    (belongs : v.belongsTo c = true) : walk h (.scalar [] (.cls c attributes)) v = .ok [] := by
  rw [walk_scalar hv, fits_of_belongsTo hc belongs]
  rfl

theorem walk_untyped (hv : ¬v.isAbsent = true) : walk h (.scalar [] .absent) v = .ok [] := by
  rw [walk_scalar hv]
  rfl

/-- A node finds in the values that conform to a hint what the hint requires of them. -/
def Serves (h : Host) (n : Node) (hint : Hint) : Prop :=
  ∀ v, hint.Conforms v → hint.Askable v → walk h n v = .ok (hint.missing v)

variable {n : Node}

/-- An absent value is what a hint requires, or not, as its node does. -/
theorem walk_missing_absent {hint : Hint} (hv : v.isAbsent = true)
    (own : n.surveyAbsent.own.toList = if hint.admitsAbsent then [] else [.required]) :
    walk h n v = .ok (hint.missing v) := by
  rw [walk_of_absent hv, own, missing, places_of_absent hint hv]
  cases optional : hint.admitsAbsent <;> simp [absences, hv, optional]

theorem missing_of_absent {hint : Hint} (hv : v.isAbsent = true) (optional : hint.admitsAbsent = false) :
    hint.missing v = [.required] := by
  rw [missing, places_of_absent hint hv]
  simp [absences, hv, optional]

theorem serves_nothing : Serves h (.scalar [] .absent) .nothing := by
  intro v conforms _
  cases conforms with
  | nothing hv => exact walk_missing_absent hv rfl

/-- A scalar of no class finds nothing but that the value is absent. -/
theorem walk_object (attributes : List (String × Value)) (v : Value) :
    walk h (.scalar [] .absent) v = .ok (missing (.cls (.builtin .object) attributes) v) := by
  by_cases hv : v.isAbsent = true
  · exact walk_missing_absent hv rfl
  · rw [walk_untyped hv, missing_cls, absences_cons_present hv]
    rfl

theorem walk_loosely (v : Value) : walk h (.scalar [] .absent) v = .ok (absences (loosely v)) := walk_object [] v

theorem serves_collection {c : ClassRef} {attributes : List (String × Value)} (hp : placesOfClass c = Place.ofElements loosely)
    (hc : ∀ v : Value, v.belongsTo c = true → ∃ items, v.elements? = some items) :
    Serves h (.wrapper .sequence [] (some (.scalar [] .absent)) none) (.cls c attributes) := by
  intro v conforms _
  cases conforms with
  | cls belongs =>
    obtain ⟨items, hitems⟩ := hc v belongs
    rw [missing_cls, absences_cons_present (present_of_elements hitems), hp]
    exact walk_elements hitems fun x _ => walk_loosely x

theorem serves_mapping {c : ClassRef} {attributes : List (String × Value)}
    (hp : placesOfClass c = Place.ofEntries fun _ => loosely)
    (hc : ∀ v : Value, v.belongsTo c = true → ∃ entries, v.entries? = some entries) :
    Serves h (.wrapper .mapping [] (some (.scalar [] .absent)) none) (.cls c attributes) := by
  intro v conforms _
  cases conforms with
  | cls belongs =>
    obtain ⟨entries, hentries⟩ := hc v belongs
    rw [missing_cls, absences_cons_present (present_of_entries hentries), hp]
    exact walk_entries hentries fun e _ => walk_loosely e.2

theorem serves_class {c : ClassRef} {attributes : List (String × Value)} (hp : ∀ v, placesOfClass c v = []) :
    Serves h (.scalar [] (.cls c attributes)) (.cls c attributes) := by
  intro v conforms askable
  by_cases hv : v.isAbsent = true
  · exact walk_missing_absent hv rfl
  cases conforms with
  | cls belongs =>
    have hc : c ≠ .any := by
      rintro rfl
      exact hv (askable ⟨[], .cls .any attributes, v⟩ List.mem_cons_self rfl)
    rw [walk_class hv hc belongs, missing_cls, absences_cons_present hv, hp, absences_nil]

/-- A class that carries no schema is served by what it suggests. -/
theorem served_cls {c : ClassRef} {attributes : List (String × Value)}
    (plain : isStructure h owner (.cls c attributes) = false) :
    ∃ n, Compiles (classShape h owner c attributes) n ∧ Serves h n (.cls c attributes) := by
  unfold classShape
  split
  iterate 5
    · refine ⟨_, .wrapper .sequence .anyScalar, serves_collection rfl fun v hv => ?_⟩
      cases v <;> simp_all [Value.belongsTo, Value.isInstance?, Value.isBuiltin, Value.elements?]
  iterate 2
    · refine ⟨_, .wrapper .mapping .anyScalar, serves_mapping rfl fun v hv => ?_⟩
      cases v <;> simp_all [Value.belongsTo, Value.isInstance?, Value.isBuiltin, Value.entries?]
  · exact ⟨_, .anyScalar, fun v _ _ => walk_object attributes v⟩
  · rw [plain, if_neg Bool.false_ne_true]
    refine ⟨_, .scalar, serves_class fun v => ?_⟩
    unfold placesOfClass
    split <;> first | rfl | contradiction

/-! ### Hints with parameters -/

/-- What may be asked of a value may be asked of the places below it. -/
theorem Askable.element {within : Value → List Place} {items : List Value} {x : Value} {hint : Hint}
    (askable : ∀ p ∈ Place.ofElements within v, p.hint.isAny = true → p.value.isAbsent = true)
    (hitems : v.elements? = some items) (hx : x ∈ items) (below : hint.places x = within x) : hint.Askable x := by
  intro p hp
  obtain ⟨i, hi⟩ := List.mem_iff_getElem?.mp hx
  refine askable (p.under [.index i]) ?_
  rw [Place.ofElements, hitems]
  exact List.mem_flatMap.mpr ⟨(x, i), List.mem_zipIdx_iff_getElem?.mpr hi, List.mem_map_of_mem (below ▸ hp)⟩

theorem served_elements {name : String} {args : List Hint} {s : Shape} (compiles : Compiles s n)
    (serves : Serves h n (element args)) :
    ∃ n, Compiles (.wrapper .sequence (some s) none []) n ∧ Serves h n (.generic (.elements name) args) := by
  refine ⟨_, compiles.wrapper .sequence, fun v conforms askable => ?_⟩
  cases conforms with
  | @elements _ _ _ items hitems hx =>
    rw [missing_elements, absences_cons_present (present_of_elements hitems)]
    refine walk_elements hitems fun x hm => ?_
    rw [placesFirst_eq]
    refine serves x (hx x hm) (.element (fun p hp => askable p ?_) hitems hm (congrFun (placesFirst_eq args).symm x))
    exact List.mem_cons_of_mem _ hp

theorem served_positions {args : List Hint} :
    ∃ n, Compiles (.wrapper .sequence (some anyScalar) none []) n ∧ Serves h n (.generic .positions args) := by
  refine ⟨_, .wrapper .sequence .anyScalar, fun v conforms _ => ?_⟩
  cases conforms with
  | positions hitems hx =>
    rw [missing_positions, absences_cons_present (present_of_elements hitems)]
    exact walk_elements hitems fun x _ => walk_loosely x

theorem served_entries {name : String} {k w : Hint} {s t : Shape} {m : Node} (hs : Compiles s n) (ht : Compiles t m)
    (serves : Serves h n k) (serves' : Serves h m w) :
    ∃ n, Compiles (.wrapper .mapping (some t) (some s) []) n ∧ Serves h n (.generic (.entries name) [k, w]) := by
  refine ⟨_, ht.entries hs, fun v conforms askable => ?_⟩
  cases conforms with
  | @entries _ _ _ entries hentries hk hw =>
    rw [missing_entries, absences_cons_present (present_of_entries hentries)]
    refine walk_entries hentries fun e hm => ?_
    have below : ∀ p ∈ k.places e.1 ++ w.places e.2, p.hint.isAny = true → p.value.isAbsent = true := by
      intro p hp
      refine askable (p.under [.key e.1]) (List.mem_cons_of_mem _ ?_)
      rw [Place.ofEntries, hentries]
      exact List.mem_flatMap.mpr ⟨e, hm, List.mem_map_of_mem hp⟩
    have first := serves e.1 (hk k w rfl e hm) fun p hp => below p (List.mem_append_left _ hp)
    have next := serves' e.2 (hw k w rfl e hm) fun p hp => below p (List.mem_append_right _ hp)
    simp only [first, next, placesEntry, absences_append]
    rfl

theorem served_loose_entries {name : String} {args : List Hint} (hargs : ∀ k w, args ≠ [k, w]) :
    ∃ n, Compiles (.wrapper .mapping (some anyScalar) none []) n ∧ Serves h n (.generic (.entries name) args) := by
  have loose : placesEntry args = fun _ => loosely := by
    funext x y
    rw [placesEntry]
    exact hargs
  refine ⟨_, .wrapper .mapping .anyScalar, fun v conforms _ => ?_⟩
  cases conforms with
  | entries hentries hk hw =>
    rw [missing_entries, absences_cons_present (present_of_entries hentries), loose]
    exact walk_entries hentries fun e _ => walk_loosely e.2

/-! ### Unions -/

theorem placesPresent_eq (members : List Hint) (v : Value) : placesPresent members v = (present members).map (·.places v) := by
  induction members with
  | nil => rfl
  | cons m rest ih =>
    rw [placesPresent, ih]
    cases hm : m.isAbsentClass <;> simp [present, hm]

/-- A hint that adds itself to a union is no union, so it is not optional. -/
theorem admitsAbsent_of_flat {m : Hint} (flat : m.members = [m]) : m.admitsAbsent = false := by
  cases m with
  | union ms =>
    have size := congrArg sizeOf (show ms = [.union ms] from flat)
    simp at size
    omega
  | _ => rfl

theorem absent_of_absentClass {m : Hint} (hm : m.isAbsentClass = true) (conforms : m.Conforms v) : v.isAbsent = true := by
  cases conforms with
  | @cls c _ _ belongs =>
    obtain rfl : c = .builtin .noneType := by simpa [isAbsentClass] using hm
    cases v <;> simp_all [Value.belongsTo, Value.isInstance?, Value.isBuiltin, Value.isAbsent]
  | _ => cases hm

/-- A value conforms to a present member of a union, unless it is absent and the union has the absent value. -/
theorem Conforms.of_union {members : List Hint} (conforms : (union members).Conforms v)
    (whole : v.isAbsent = true → members.any isAbsentClass = false) : ∃ m ∈ present members, m.Conforms v := by
  cases conforms with
  | @member _ m _ hm hv =>
    refine ⟨m, List.mem_filter.mpr ⟨hm, ?_⟩, hv⟩
    cases absent : m.isAbsentClass with
    | false => rfl
    | true =>
      have none := List.any_eq_false.mp (whole (absent_of_absentClass absent hv)) m hm
      exact absurd absent none

/-- What the present members of a union suggest serves the union, but for the absent value if that is a member. -/
theorem served_present {members : List Hint} (each : ∀ m ∈ members, ∃ n, Compiles (m.inferShape h owner) n ∧ Serves h n m)
    (unstructured : ∀ m ∈ members, isStructure h owner m = false) (flat : ∀ m ∈ members, m.members = [m])
    (some_present : ∃ m ∈ members, m.isAbsentClass = false) :
    ∃ n, Compiles (presentShape h owner (present members)) n ∧
      ∀ v, (union members).Conforms v → (union members).Askable v →
        (v.isAbsent = true → members.any isAbsentClass = false) → walk h n v = .ok ((union members).missing v) := by
  have known : ∀ m ∈ present members, m ∈ members := fun m hm => (List.mem_filter.mp hm).1
  rcases hp : present members with _ | ⟨m, _ | ⟨m', rest⟩⟩
  · obtain ⟨m, hm, present_m⟩ := some_present
    have none : m ∈ present members := List.mem_filter.mpr ⟨hm, by simp [present_m]⟩
    rw [hp] at none
    cases none
  -- The shape of the only present member: a value of the union is one of the member, unless it is the absent value.
  · have hm : m ∈ members := known m (hp ▸ List.mem_cons_self)
    obtain ⟨n, compiles, serves⟩ := each m hm
    refine ⟨n, compiles, fun v conforms askable whole => ?_⟩
    obtain ⟨m', hm', conforms'⟩ := conforms.of_union whole
    rw [hp] at hm'
    cases List.mem_singleton.mp hm'
    by_cases hv : v.isAbsent = true
    · have alone : m.Askable v := by
        intro p hp' _
        rw [places_of_absent _ hv] at hp'
        cases List.mem_singleton.mp hp'
        exact hv
      have refuses : (union members).admitsAbsent = false := whole hv
      rw [serves v conforms' alone, missing_of_absent hv (admitsAbsent_of_flat (flat m hm)), missing_of_absent hv refuses]
    · have below : (union members).places v = ⟨[], .union members, v⟩ :: m.places v := by
        rw [places, if_neg hv, placesPresent_eq, hp]
        rfl
      rw [serves v conforms' fun p hp' => askable p (below ▸ List.mem_cons_of_mem _ hp'), missing, missing, below,
        absences_cons_present hv]
  -- None of several members has a schema, so the shape is any scalar.
  · have loose : unionShape h owner (m :: m' :: rest) = anyScalar := by
      have scalar := unstructured m (known m (hp ▸ List.mem_cons_self))
      simp [unionShape, scalar]
    refine ⟨.scalar [] .absent, ?_, fun v _ _ whole => ?_⟩
    · change Compiles (unionShape h owner (m :: m' :: rest)) _
      exact loose ▸ .anyScalar
    by_cases hv : v.isAbsent = true
    · exact walk_missing_absent hv (by simp [admitsAbsent, whole hv]; rfl)
    · have below : (union members).places v = [⟨[], .union members, v⟩] := by
        rw [places, if_neg hv, placesPresent_eq, hp]
        rfl
      rw [walk_untyped hv, missing, below, absences_cons_present hv, absences_nil]

theorem served_union {members : List Hint} (each : ∀ m ∈ members, ∃ n, Compiles (m.inferShape h owner) n ∧ Serves h n m)
    (unstructured : ∀ m ∈ members, isStructure h owner m = false) (flat : ∀ m ∈ members, m.members = [m])
    (some_present : ∃ m ∈ members, m.isAbsentClass = false) :
    ∃ n, Compiles ((union members).inferShape h owner) n ∧ Serves h n (.union members) := by
  obtain ⟨n, compiles, walks⟩ := served_present each unstructured flat some_present
  rw [inferShape_union]
  cases optional : members.any isAbsentClass with
  | false => exact ⟨n, compiles, fun v conforms askable => walks v conforms askable fun _ => optional⟩
  | true =>
    refine ⟨_, compiles.wrapper .optional, fun v conforms askable => ?_⟩
    by_cases hv : v.isAbsent = true
    · exact walk_missing_absent hv (by simp [admitsAbsent, optional]; rfl)
    · rw [walk_optional hv, walks v conforms askable fun absent => absurd absent hv]
      rfl

/-! ### Plain hints -/

/-- A plain hint is served by what it suggests. -/
theorem Plain.served {hint : Hint} (plain : hint.Plain h owner) :
    ∃ n, Compiles (hint.inferShape h owner) n ∧ Serves h n hint := by
  induction plain with
  | nothing => exact ⟨_, .anyScalar, serves_nothing⟩
  | cls hc => exact served_cls hc
  | @elements name args ha ih =>
    rw [inferShape, inferShapes_eq]
    cases args with
    | nil => exact served_elements .anyScalar fun v _ _ => walk_object [] v
    | cons a rest =>
      obtain ⟨n, compiles, serves⟩ := ih a List.mem_cons_self
      exact served_elements compiles serves
  | positions => exact served_positions
  | @entries name args ha ih =>
    rw [inferShape, inferShapes_eq]
    rcases args with _ | ⟨k, _ | ⟨w, _ | ⟨u, rest⟩⟩⟩
    · exact served_loose_entries nofun
    · exact served_loose_entries nofun
    · obtain ⟨n, hs, serves⟩ := ih k List.mem_cons_self
      obtain ⟨m, ht, serves'⟩ := ih w (List.mem_cons_of_mem _ List.mem_cons_self)
      exact served_entries hs ht serves serves'
    · exact served_loose_entries nofun
  | union hm flat some_present ih => exact served_union ih (fun m hm' => (hm m hm').unstructured) flat some_present

/-- A hint that is served by what it suggests admits the values that conform to it, but for the missing ones. -/
theorem admits_of_served {hint : Hint} (served : ∃ n, Compiles (hint.inferShape h owner) n ∧ Serves h n hint)
    (b : SchemaBuilder) (t : FunctionTable) :
    ∃ n, b.compileShape h t (.shape (hint.inferShape h owner)) = .ok n ∧
      ∀ v, hint.Conforms v → hint.Askable v → n.validate h v = .ok (Report.of v (hint.missing v)) := by
  obtain ⟨n, compiles, serves⟩ := served
  refine ⟨n, compiles.compileShape b h t, fun v conforms askable => ?_⟩
  rw [Node.validate_eq_walk, serves v conforms askable]
  rfl

/-- A hint of plain parts, as it is written, admits in normal form the values that conform to it, but for the missing
ones: unions in unions and members that are given again change nothing. -/
theorem Composed.normal_admits (absent : absentClass.Plain h owner) {hint : Hint} (composed : hint.Composed h owner)
    (b : SchemaBuilder) (t : FunctionTable) :
    ∃ n, b.compileShape h t (.shape (hint.normalize.inferShape h owner)) = .ok n ∧
      ∀ v, hint.normalize.Conforms v → hint.normalize.Askable v →
        n.validate h v = .ok (Report.of v (hint.normalize.missing v)) :=
  admits_of_served (composed.plain absent).served b t

/-- What a plain hint suggests compiles, and validating a value that conforms to the hint by it reports that a value
is required wherever the absent value stands at a hint that is not optional, and nothing else. -/
theorem Plain.admits_conforming {hint : Hint} (plain : hint.Plain h owner) (b : SchemaBuilder) (t : FunctionTable) :
    ∃ n, b.compileShape h t (.shape (hint.inferShape h owner)) = .ok n ∧
      ∀ v, hint.Conforms v → hint.Askable v → n.validate h v = .ok (Report.of v (hint.missing v)) :=
  admits_of_served plain.served b t

end Conforming

/-- A list in a mapping of optional lists conforms whatever is in it, and an absent element is required. -/
theorem Plain.admits_conforming_of_lists :
    let hint : Hint := .generic (.entries "dict") [.cls (.builtin .str) [],
      .union [.cls (.builtin .list) [], absentClass]]
    let v : Value := .dict [(.text "a", .list [.int 1, .absent]), (.text "b", .absent)]
    let b : SchemaBuilder := { name := .text "s" }
    ∃ n, b.compileShape .bare .default (.shape (hint.inferShape .bare none)) = .ok n ∧
      n.validate .bare v = .ok (Report.of v [Violation.required.under [.key (.text "a"), .index 1]]) := by
  intro hint v b
  have plain : hint.Plain .bare none := by
    refine .entries fun a ha => ?_
    rcases List.mem_pair.mp ha with rfl | rfl
    · exact .cls rfl
    · refine .union (fun m hm => ?_) (fun m hm => ?_) ⟨_, List.mem_cons_self, rfl⟩
      · rcases List.mem_pair.mp hm with rfl | rfl <;> exact .cls rfl
      · rcases List.mem_pair.mp hm with rfl | rfl <;> rfl
  have conforms : hint.Conforms v := by
    refine .entries rfl ?_ ?_
    · rintro k w hargs e he
      cases hargs
      rcases List.mem_pair.mp he with rfl | rfl <;> exact .cls rfl
    · rintro k w hargs e he
      cases hargs
      rcases List.mem_pair.mp he with rfl | rfl
      · exact .member List.mem_cons_self (.cls rfl)
      · exact .member (List.mem_cons_of_mem _ List.mem_cons_self) (.cls rfl)
  have askable : hint.Askable v := by
    unfold Askable
    decide
  obtain ⟨n, compiles, validates⟩ := plain.admits_conforming b .default
  exact ⟨n, compiles, validates v conforms askable⟩

/-- A tuple of an absent value and a whole number conforms to its hint, and is not valid. -/
theorem Plain.conforming_refused :
    let hint : Hint := .generic .positions [.union [.cls (.builtin .int) [], absentClass], .cls (.builtin .int) []]
    let v : Value := .tuple [.absent, .int 1]
    let b : SchemaBuilder := { name := .text "s" }
    hint.Plain .bare none ∧ hint.Conforms v ∧
      ∃ n report, b.compileShape .bare .default (.shape (hint.inferShape .bare none)) = .ok n ∧
        n.validate .bare v = .ok report ∧ report.valid = false := by
  intro hint v b
  have plain : hint.Plain .bare none := .positions
  have conforms : hint.Conforms v := by
    refine .positions rfl fun i a x ha hx => ?_
    rcases i with _ | _ | i
    · cases ha
      cases hx
      exact .member (List.mem_cons_of_mem _ List.mem_cons_self) (.cls rfl)
    · cases ha
      cases hx
      exact .cls rfl
    · cases ha
  have askable : hint.Askable v := by
    unfold Askable
    decide
  obtain ⟨n, compiles, serves⟩ := plain.served
  refine ⟨plain, conforms, n, Report.of v (hint.missing v), compiles.compileShape b _ _, ?_, rfl⟩
  rw [Node.validate_eq_walk, serves v conforms askable]
  rfl

end Hint
end Conform
