import Conform.Proofs.Declared
import Mathlib.Data.List.Basic

/-!
Hints and the shapes that they suggest. What a union suggests depends on its present members alone, and on whether
the absent value is one. A plain hint has no declarations, no names and no classes that carry a schema; a hint that
is written with such parts is plain in normal form, where no member of a union is a union, and one is not the
absent value.
-/

namespace Conform
namespace Hint

/-! ### Unions -/

/-- The members of a union that are not the absent value. -/
def present (members : List Hint) : List Hint := members.filter fun m => !m.isAbsentClass

/-- The shape that the present members of a union suggest. -/
def presentShape (h : Host) (owner : Option ClassRef) : List Hint → Shape
  | [m] => m.inferShape h owner
  | ms => unionShape h owner ms

section Unions
variable {h : Host} {owner : Option ClassRef}

theorem inferShapes_eq (hs : List Hint) : inferShapes h owner hs = hs.map (inferShape h owner) := by
  induction hs with
  | nil => rfl
  | cons x rest ih => rw [inferShapes, ih, List.map_cons]

theorem inferShape_union (members : List Hint) : (union members).inferShape h owner =
    let inner := presentShape h owner (present members)
    if members.any isAbsentClass then .wrapper .optional (some inner) none [] else inner := by
  have zipped : (members.zip (inferShapes h owner members)).filter (fun p => !p.1.isAbsentClass)
      = (present members).map fun m => (m, m.inferShape h owner) := by
    induction members with
    | nil => rfl
    | cons m rest ih =>
      rw [inferShapes, List.zip_cons_cons, List.filter_cons, ih]
      cases hm : m.isAbsentClass <;> simp [present, hm]
  have firsts : ((present members).map fun m => (m, m.inferShape h owner)).map Prod.fst = present members := by
    simp [Function.comp_def]
  have shorter : (present members).length < members.length ↔ members.any isAbsentClass = true := by
    rw [present, List.length_filter_lt_length_iff_exists]
    simp
  rw [inferShape]
  generalize found : List.filter _ (members.zip (inferShapes h owner members)) = pairs
  obtain rfl := found.symm.trans zipped
  rw [firsts, List.length_map]
  simp only [shorter]
  rcases present members with _ | ⟨m, _ | _⟩ <;> rfl

end Unions

/-! ### Plain hints -/

/-- Hints without declarations, names and classes that carry a schema, but for what stands at the positions of a
tuple. A union has a member besides the absent value, and no member is a union. -/
inductive Plain (h : Host) (owner : Option ClassRef) : Hint → Prop where
  | nothing : Plain h owner .nothing
  | cls {c attributes} (hc : isStructure h owner (.cls c attributes) = false) : Plain h owner (.cls c attributes)
  | elements {name args} (ha : ∀ a ∈ args, Plain h owner a) : Plain h owner (.generic (.elements name) args)
  | positions {args} : Plain h owner (.generic .positions args)
  | entries {name args} (ha : ∀ a ∈ args, Plain h owner a) : Plain h owner (.generic (.entries name) args)
  | union {members} (hm : ∀ m ∈ members, Plain h owner m) (flat : ∀ m ∈ members, m.members = [m])
      (present : ∃ m ∈ members, m.isAbsentClass = false) : Plain h owner (.union members)

/-- A hint of plain parts as it is written: a union may hold unions, repeat a member or have only one. -/
inductive Composed (h : Host) (owner : Option ClassRef) : Hint → Prop where
  | nothing : Composed h owner .nothing
  | cls {c attributes} (hc : isStructure h owner (.cls c attributes) = false) : Composed h owner (.cls c attributes)
  | elements {name args} (ha : ∀ a ∈ args, Composed h owner a) : Composed h owner (.generic (.elements name) args)
  | positions {args} : Composed h owner (.generic .positions args)
  | entries {name args} (ha : ∀ a ∈ args, Composed h owner a) : Composed h owner (.generic (.entries name) args)
  | union {hints} (hm : ∀ m ∈ hints, Composed h owner m) (some : hints ≠ []) : Composed h owner (.union hints)

section Plain
variable {h : Host} {owner : Option ClassRef}

theorem Plain.unstructured {hint : Hint} (plain : hint.Plain h owner) : isStructure h owner hint = false := by
  cases plain with
  | cls hc => exact hc
  | _ => rfl

theorem distinct_pairwise (hints : List Hint) : (distinct hints).Pairwise fun a b => same a b = false := by
  refine List.foldlRecOn hints _ .nil fun seen apart x _ => ?_
  split
  · exact apart
  · next new =>
    refine List.pairwise_append.mpr ⟨apart, List.pairwise_singleton _ _, fun a ha b hb => ?_⟩
    rw [List.mem_singleton.mp hb]
    simpa using fun same => new (List.any_eq_true.mpr ⟨a, ha, same⟩)

theorem distinct_ne_nil {hints : List Hint} (some : hints ≠ []) : distinct hints ≠ [] := by
  cases hints with
  | nil => exact absurd rfl some
  | cons x rest =>
    change rest.foldl _ [x] ≠ []
    refine List.foldlRecOn (motive := fun seen => seen ≠ []) rest _ (List.cons_ne_nil x []) fun seen some y _ => ?_
    split
    · exact some
    · simp

/-- The members that a plain hint adds to a union are plain and no unions, and there are some. -/
theorem Plain.of_members (absent : absentClass.Plain h owner) {hint : Hint} (plain : hint.Plain h owner) :
    hint.members ≠ [] ∧ ∀ m ∈ hint.members, m.Plain h owner ∧ m.members = [m] := by
  cases plain with
  | nothing => exact ⟨List.cons_ne_nil _ _, fun m hm => List.mem_singleton.mp hm ▸ ⟨absent, rfl⟩⟩
  | union hm flat present =>
    obtain ⟨m, hm', -⟩ := present
    exact ⟨List.ne_nil_of_mem hm', fun m hm' => ⟨hm m hm', flat m hm'⟩⟩
  | cls hc => exact ⟨List.cons_ne_nil _ _, fun m hm => List.mem_singleton.mp hm ▸ ⟨.cls hc, rfl⟩⟩
  | elements ha => exact ⟨List.cons_ne_nil _ _, fun m hm => List.mem_singleton.mp hm ▸ ⟨.elements ha, rfl⟩⟩
  | positions => exact ⟨List.cons_ne_nil _ _, fun m hm => List.mem_singleton.mp hm ▸ ⟨.positions, rfl⟩⟩
  | entries ha => exact ⟨List.cons_ne_nil _ _, fun m hm => List.mem_singleton.mp hm ▸ ⟨.entries ha, rfl⟩⟩

theorem same_of_absentClass {a b : Hint} (ha : a.isAbsentClass = true) (hb : b.isAbsentClass = true) : same a b = true := by
  unfold isAbsentClass at ha hb
  split at ha
  · split at hb
    · rw [beq_iff_eq.mp ha, beq_iff_eq.mp hb]
      simp [same, key, Value.same, Value.eq, Value.sameUndefined, Value.scalarEq, Value.magnitude?]
    · cases hb
  · cases ha

theorem plain_unionOf (absent : absentClass.Plain h owner) {hints : List Hint} (some : hints ≠ [])
    (plain : ∀ x ∈ hints, x.Plain h owner) : (unionOf hints).Plain h owner := by
  have each : ∀ m ∈ distinct (hints.flatMap members), m.Plain h owner ∧ m.members = [m] := by
    intro m hm
    obtain ⟨x, hx, hm⟩ := List.mem_flatMap.mp (mem_of_mem_distinct hm)
    exact (Plain.of_members absent (plain x hx)).2 m hm
  have nonempty : distinct (hints.flatMap members) ≠ [] := by
    obtain ⟨x, hx⟩ := List.exists_mem_of_ne_nil _ some
    obtain ⟨m, hm⟩ := List.exists_mem_of_ne_nil _ (Plain.of_members absent (plain x hx)).1
    exact distinct_ne_nil (List.ne_nil_of_mem (List.mem_flatMap.mpr ⟨x, hx, hm⟩))
  have apart := distinct_pairwise (hints.flatMap members)
  unfold unionOf
  revert each nonempty apart
  generalize distinct (hints.flatMap members) = members
  intro each nonempty apart
  rcases members with _ | ⟨a, _ | ⟨b, rest⟩⟩
  · exact absurd rfl nonempty
  · exact (each a List.mem_cons_self).1
  · refine .union (fun m hm => (each m hm).1) (fun m hm => (each m hm).2) ?_
    by_contra none
    -- Two absent values would be the same member.
    have absent_a : a.isAbsentClass = true := by
      by_contra present
      exact none ⟨a, List.mem_cons_self, by simpa using present⟩
    have absent_b : b.isAbsentClass = true := by
      by_contra present
      exact none ⟨b, List.mem_cons_of_mem _ List.mem_cons_self, by simpa using present⟩
    have different := List.rel_of_pairwise_cons apart List.mem_cons_self
    rw [same_of_absentClass absent_a absent_b] at different
    cases different

/-- A hint of plain parts is plain once it is in normal form. -/
theorem Composed.plain (absent : absentClass.Plain h owner) {hint : Hint} (composed : hint.Composed h owner) :
    hint.normalize.Plain h owner := by
  have all : ∀ hints : List Hint, normalizeAll hints = hints.map normalize := by
    intro hints
    induction hints with
    | nil => rfl
    | cons x rest ih => rw [normalizeAll, ih, List.map_cons]
  induction composed with
  | nothing => exact .nothing
  | cls hc => exact .cls hc
  | elements ha ih => 
    rw [normalize, all]
    exact .elements (List.forall_mem_map.mpr ih)
  | positions => exact .positions
  | entries ha ih =>
    rw [normalize, all]
    exact .entries (List.forall_mem_map.mpr ih)
  | union hm some ih =>
    rw [normalize, all]
    exact plain_unionOf absent (by simpa using some) (List.forall_mem_map.mpr ih)

end Plain
end Hint
end Conform
