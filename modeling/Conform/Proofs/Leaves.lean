import Conform.Proofs.Agreeing

/-!
Validation without a target, leaf by leaf. Lists, tuples, sets and mappings are looked into to any depth, and whatever
else stands in them is a leaf. What is found is what is found at the leaves, in order, each seen from the whole: the
absent value is passed over, a leaf that a schema is found for is validated by it, and any other leaf is refused.
Where no leaf is itself a class or a schema object, the schema is that of the class that the leaf is an instance of.
-/

namespace Conform

/-- A value that is not looked into, and the way to it. -/
structure Leaf where
  way : Path
  value : Value

namespace Leaf

def under (p : Path) (l : Leaf) : Leaf := { l with way := p ++ l.way }

/-- What validation without a target finds at a leaf. -/
def findings (h : Host) (l : Leaf) : Except Fault (List Violation) :=
  if l.value.isAbsent then .ok []
  else match h.schemaOf? l.value with
    | some s => inward l.way (s.walk h l.value)
    | none => .error (.refused (.schemaNotFound l.value.className))

end Leaf

namespace Value

mutual

/-- The leaves of a value, in the order of the walk. -/
def leaves : Value → List Leaf
  | .mapping _ entries => leavesOfEntries entries
  | .sequence .list items | .sequence .tuple items | .set _ items => leavesOfItems items 0
  | v => [⟨[], v⟩]

/-- The leaves of elements, of which the first has the given position. -/
def leavesOfItems : List Value → Nat → List Leaf
  | [], _ => []
  | x :: rest, position => x.leaves.map (Leaf.under [.index position]) ++ leavesOfItems rest (position + 1)

/-- The leaves of the values of entries. -/
def leavesOfEntries : List (Value × Value) → List Leaf
  | [] => []
  | (k, x) :: rest => x.leaves.map (Leaf.under [.key k]) ++ leavesOfEntries rest

end

end Value

/-! ### The walk -/

theorem inward_inward (p q : Path) (found : Except Fault (List Violation)) :
    inward p (inward q found) = inward (p ++ q) found := by
  cases found <;> simp [inward, Except.map, Violation.under_under]

theorem inward_inTurn (p : Path) (found : List (Except Fault (List Violation))) :
    inward p (inTurn found) = inTurn (found.map (inward p)) := by
  induction found with
  | nil => rfl
  | cons first rest ih => rw [inTurn, inward_andThen, ih, List.map_cons, inTurn]

section Walk
variable {h : Host}

theorem Leaf.findings_under (p : Path) (l : Leaf) : (l.under p).findings h = inward p (l.findings h) := by
  unfold findings under
  split
  · rfl
  · cases h.schemaOf? l.value with
    | none => rfl
    | some s => exact (inward_inward p l.way _).symm

theorem findings_map_under (p : Path) (leaves : List Leaf) :
    inTurn ((leaves.map (Leaf.under p)).map (Leaf.findings h)) = inward p (inTurn (leaves.map (Leaf.findings h))) := by
  have moved : Leaf.findings h ∘ Leaf.under p = inward p ∘ Leaf.findings h := funext (Leaf.findings_under p)
  rw [List.map_map, moved, ← List.map_map, inward_inTurn]

/-- Walking adopts what is found at the leaves. -/
def CollectsLeaves (h : Host) (walk : Recorder → Except Fault Recorder) (leaves : List Leaf) : Prop :=
  ∀ r, walk r = (inTurn (leaves.map (Leaf.findings h))).map r.adopt

/-- What is found along a step comes before what is found later. -/
theorem CollectsLeaves.step {first later : Recorder → Except Fault Recorder} {here there : List Leaf} {s : Segment}
    (hfirst : CollectsLeaves h first here) (hlater : CollectsLeaves h later there) :
    CollectsLeaves h (fun r => match r.inside s first with
      | .error f => .error f
      | .ok r => later r) (here.map (Leaf.under [s]) ++ there) := by
  intro r
  have inside := Recorder.inside_eq (hfirst (r.enter s))
  rw [List.map_append, inTurn_append, findings_map_under, Recorder.adopt_andThen]
  dsimp only
  rw [inside]
  cases inward [s] (inTurn (here.map (Leaf.findings h))) with
  | error f => rfl
  | ok vs => exact hlater (r.adopt vs)

/-- What is found at a value that is a leaf itself. -/
theorem findings_of_leaf {v : Value} (leaf : v.leaves = [⟨[], v⟩]) (hv : ¬v.isAbsent = true) :
    inTurn (v.leaves.map (Leaf.findings h)) = match h.schemaOf? v with
      | some s => s.walk h v
      | none => .error (.refused (.schemaNotFound v.className)) := by
  have found : inTurn ([⟨[], v⟩].map (Leaf.findings h)) = Leaf.findings h ⟨[], v⟩ := andThen_nil _
  rw [leaf, found, Leaf.findings, if_neg hv]
  cases h.schemaOf? v with
  | none => rfl
  | some s => exact inward_nil _

theorem collectsLeaves_leaf {v : Value} (leaf : v.leaves = [⟨[], v⟩]) (hv : ¬v.isAbsent = true)
    (own : ∀ r, collectOwn h v r = match h.schemaOf? v with
      | some s => s.collect h v hv r
      | none => .error (.refused (.schemaNotFound v.className))) :
    CollectsLeaves h (collectOwn h v) v.leaves := by
  intro r
  rw [own, findings_of_leaf leaf hv]
  cases h.schemaOf? v with
  | none => rfl
  | some s => exact s.collect_eq_walk h hv r

mutual

/-- What is found in a value without a target is what is found at its leaves. -/
theorem collectOwn_leaves : ∀ v : Value, CollectsLeaves h (collectOwn h v) v.leaves
  | .absent => fun r => by
    simp [collectOwn, Value.leaves, Leaf.findings, Value.isAbsent, inTurn, Except.map]
  | .mapping _ entries => fun r => by
    rw [collectOwn, Value.leaves]
    exact collectOwnEntries_leaves entries r
  | .sequence .list items | .sequence .tuple items | .set _ items => fun r => by
    rw [collectOwn, Value.leaves]
    exact collectOwnItems_leaves items 0 r
  | .sequence .deque _ | .bool _ | .int _ | .float _ | .complex _ | .decimal _ | .fraction .. | .date _ | .moment _
  | .text _ | .bytes .. | .range .. | .pattern .. | .bag .. | .member .. | .function _ | .cls .. | .object ..
  | .record .. => by
    refine collectsLeaves_leaf rfl nofun fun r => ?_
    unfold collectOwn
    exact dif_neg nofun

theorem collectOwnItems_leaves : ∀ (items : List Value) (position : Nat),
    CollectsLeaves h (collectOwnItems h items position) (Value.leavesOfItems items position)
  | [], position => fun r => by
    rw [collectOwnItems, Value.leavesOfItems]
    simp [inTurn, Except.map]
  | x :: rest, position => fun r => by
    rw [collectOwnItems, Value.leavesOfItems]
    exact (collectOwn_leaves x).step (collectOwnItems_leaves rest (position + 1)) r

theorem collectOwnEntries_leaves : ∀ entries : List (Value × Value),
    CollectsLeaves h (collectOwnEntries h entries) (Value.leavesOfEntries entries)
  | [] => fun r => by
    rw [collectOwnEntries, Value.leavesOfEntries]
    simp [inTurn, Except.map]
  | (k, x) :: rest => fun r => by
    rw [collectOwnEntries, Value.leavesOfEntries]
    exact (collectOwn_leaves x).step (collectOwnEntries_leaves rest) r

end

end Walk

/-! ### Instances and strays -/

/-- The schema of the class that a value is an instance of. -/
def Host.instanceSchema? (h : Host) : Value → Option Schema
  | .object c _ _ _ => h.classSchema c
  | _ => none

/-- What the schema of its class reports of an instance. -/
def Host.instanceViolations (h : Host) (v : Value) : List Violation :=
  match h.instanceSchema? v with
  | none => []
  | some s => match s.validate h v with
    | .ok report => report.violations
    | .error _ => []

/-- A leaf that is present and no instance of a class with a schema. -/
def Leaf.isStray (h : Host) (l : Leaf) : Bool := !l.value.isAbsent && (h.instanceSchema? l.value).isNone

theorem inTurn_map_find? {α β : Type} {find : β → Except Fault (List α)} {bad : β → Bool} {fault : β → Fault}
    {good : β → List α} : ∀ {xs : List β},
    (∀ x ∈ xs, find x = if bad x then .error (fault x) else .ok (good x)) →
      inTurn (xs.map find) = match xs.find? bad with
        | some x => .error (fault x)
        | none => .ok (xs.flatMap good)
  | [], _ => rfl
  | x :: rest, each => by
    have ih := inTurn_map_find? fun y hy => each y (List.mem_cons_of_mem _ hy)
    rw [List.map_cons, inTurn, each x List.mem_cons_self, ih, List.find?_cons]
    cases bad x with
    | true => rfl
    | false => cases rest.find? bad <;> rfl

section Instances
variable {h : Host}

theorem Leaf.findings_eq {l : Leaf} (instances : h.schemaOf? l.value = h.instanceSchema? l.value)
    (reports : ∀ s, h.instanceSchema? l.value = some s → ∃ report, s.validate h l.value = .ok report) :
    l.findings h = if l.isStray h then .error (.refused (.schemaNotFound l.value.className))
      else .ok ((h.instanceViolations l.value).map (Violation.under l.way)) := by
  unfold findings isStray Host.instanceViolations
  rw [instances]
  cases hv : l.value.isAbsent with
  | true =>
    have none : h.instanceSchema? l.value = none := by
      cases hl : l.value <;> simp_all [Value.isAbsent, Host.instanceSchema?]
    simp [none]
  | false =>
    cases found : h.instanceSchema? l.value with
    | none => simp
    | some s =>
      obtain ⟨report, hreport⟩ := reports s found
      have walked := hreport
      rw [Schema.validate_eq_walk] at walked
      obtain ⟨vs, hvs, rfl⟩ := Except.map_eq_ok.mp walked
      simp [hreport, hvs, inward, Except.map]

/-- Without a target, what is found in a value is what is found at its leaves, in order and each seen from the whole.
Where no leaf is itself a class or a schema object with a schema, and where the schemas of instances give reports, the
first leaf that is present and no instance of a class with a schema is refused by the name of its class, and if there
is none, the violations of all instances are reported. -/
theorem validate_own_by_leaves (h : Host) (v : Value) :
    validate h v .own = (inTurn (v.leaves.map (Leaf.findings h))).map (Report.of v) ∧
      ((∀ l ∈ v.leaves, h.schemaOf? l.value = h.instanceSchema? l.value) →
        (∀ l ∈ v.leaves, ∀ s, h.instanceSchema? l.value = some s → ∃ report, s.validate h l.value = .ok report) →
        validate h v .own = match v.leaves.find? (Leaf.isStray h) with
          | some l => .error (.refused (.schemaNotFound l.value.className))
          | none => .ok (Report.of v (v.leaves.flatMap fun l =>
              (h.instanceViolations l.value).map (Violation.under l.way)))) := by
  have walked : validate h v .own = (inTurn (v.leaves.map (Leaf.findings h))).map (Report.of v) := by
    rw [validate, collectOwn_leaves, Recorder.build_adopt_empty]
  refine ⟨walked, fun instances reports => ?_⟩
  have each (l : Leaf) (hl : l ∈ v.leaves) := Leaf.findings_eq (instances l hl) (reports l hl)
  rw [walked, inTurn_map_find? each]
  cases v.leaves.find? (Leaf.isStray h) <;> rfl

end Instances

namespace Session

abbrev gauge (n : Int) : Value := reading gaugeClass [("x", .int n)]

/-- Instances in a list, a mapping and a set, with an absent value among them. -/
abbrev gaugesInside : Value := .list [.absent, .dict [(.text "a", gauge 5)], .set true [gauge 1]]

/-- An instance before a number and a text. -/
abbrev numberInside : Value := .tuple [gauge 5, .dict [(.text "b", .int 7)], .text "c"]

theorem gauge_reports (n : Int) : ∃ report, gaugeSchema.validate gaugeHost (gauge n) = .ok report := by
  rw [Schema.validate, dif_neg (by simp [Value.isAbsent]), Schema.collect]
  simp only [visitFields, Schema.fields, visit]
  exact ⟨_, rfl⟩

/-- Where a violation is, and of which kind. -/
abbrev findingOf (u : Violation) : String × Path := (u.kind, u.path)

theorem gauge_findings : (gaugeHost.instanceViolations (gauge 5)).map findingOf = [("max", [.field (.text "x")])] ∧
    (gaugeHost.instanceViolations (gauge 1)).map findingOf = [] := by
  have own (n : Int) : gaugeHost.instanceSchema? (gauge n) = some gaugeSchema := rfl
  unfold Host.instanceViolations
  simp only [own]
  constructor <;>
  · rw [Schema.validate, dif_neg (by simp [Value.isAbsent]), Schema.collect]
    simp only [visitFields, Schema.fields, visit]
    rfl

theorem validate_own_by_leaves_of_gauges :
    (∀ v ∈ [gaugesInside, numberInside], ∀ l ∈ v.leaves, gaugeHost.schemaOf? l.value = gaugeHost.instanceSchema? l.value ∧
      ∀ s, gaugeHost.instanceSchema? l.value = some s → ∃ report, s.validate gaugeHost l.value = .ok report) ∧
      (validate gaugeHost gaugesInside .own).map (fun report => report.violations.map findingOf)
        = .ok [("max", [.index 1, .key (.text "a"), .field (.text "x")])] ∧
      validate gaugeHost numberInside .own = .error (.refused (.schemaNotFound "int")) := by
  have fine (v : Value) (hv : v ∈ [gaugesInside, numberInside]) (l : Leaf) (hl : l ∈ v.leaves) :
      gaugeHost.schemaOf? l.value = gaugeHost.instanceSchema? l.value ∧
        ∀ s, gaugeHost.instanceSchema? l.value = some s → ∃ report, s.validate gaugeHost l.value = .ok report := by
    have plain : l.value = .absent ∨ (∃ n, l.value = gauge n) ∨ l.value = .int 7 ∨ l.value = .text "c" := by
      simp only [List.mem_cons, List.not_mem_nil, or_false] at hv
      rcases hv with rfl | rfl <;>
        simp [Value.leaves, Value.leavesOfItems, Value.leavesOfEntries, Leaf.under] at hl <;>
        rcases hl with rfl | rfl | rfl <;> simp
    rcases plain with hl | ⟨n, hl⟩ | hl | hl <;> rw [hl] <;> refine ⟨rfl, ?_⟩
    · nofun
    · rintro s ⟨⟩
      exact gauge_reports n
    · nofun
    · nofun
  have whole (v : Value) (hv : v ∈ [gaugesInside, numberInside]) := (validate_own_by_leaves gaugeHost v).2
    (fun l hl => (fine v hv l hl).1) (fun l hl => (fine v hv l hl).2)
  refine ⟨fine, ?_, whole numberInside (List.mem_cons_of_mem _ List.mem_cons_self)⟩
  have moved (p : Path) (vs : List Violation) :
      (vs.map (Violation.under p)).map findingOf = (vs.map findingOf).map fun (kind, q) => (kind, p ++ q) := by
    simp [findingOf, Violation.under]
  have reported : validate gaugeHost gaugesInside .own = .ok (Report.of gaugesInside
      ((gaugeHost.instanceViolations (gauge 5)).map (Violation.under [.index 1, .key (.text "a")])
        ++ ((gaugeHost.instanceViolations (gauge 1)).map (Violation.under [.index 2, .index 0]) ++ []))) :=
    whole gaugesInside List.mem_cons_self
  rw [reported]
  simp only [Except.map, Report.violations_of, List.map_append, moved, gauge_findings]
  rfl

end Session
end Conform
