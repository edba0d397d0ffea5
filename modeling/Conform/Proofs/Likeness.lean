import Conform.Proofs.Scalars

/-!
Equality of values, and what it is not. Two values count as equal when they are alike level by level (`Value.Alike`): the
bare ones show the same, and those that hold others have parts that count as equal, where a set or a mapping is searched
for each member or key of the other one. Such a search goes one way only. That the answer is the same the other way round
(`Value.same_symm`) rests on two things: no two of the members or keys count as equal themselves, and equality can be
carried on from one of them to the next (`Value.same_trans`), which an ordered mapping or a collection of violations in
them would not allow.
-/

namespace Conform

/-! ### Lists that are paired off -/

section Pairing
variable {α : Type} {R : α → α → Prop}

theorem forall₂_symm {xs ys : List α} (h : List.Forall₂ R xs ys) :
    (∀ x ∈ xs, ∀ y ∈ ys, R x y → R y x) → List.Forall₂ R ys xs := by
  induction h with
  | nil => exact fun _ => .nil
  | @cons x y xs ys hxy _ ih =>
    intro symm
    refine .cons (symm _ List.mem_cons_self _ List.mem_cons_self hxy) (ih ?_)
    exact fun x hx y hy => symm x (List.mem_cons_of_mem _ hx) y (List.mem_cons_of_mem _ hy)

theorem forall₂_trans {xs ys : List α} (h : List.Forall₂ R xs ys) : ∀ {zs : List α},
    List.Forall₂ R ys zs → (∀ x ∈ xs, ∀ y ∈ ys, ∀ z ∈ zs, R x y → R y z → R x z) → List.Forall₂ R xs zs := by
  induction h with
  | nil => exact fun h _ => h
  | @cons x y xs ys hxy _ ih =>
    rintro zs (_ | ⟨hyz, later⟩) trans
    refine .cons (trans _ List.mem_cons_self _ List.mem_cons_self _ List.mem_cons_self hxy hyz) (ih later ?_)
    exact fun x hx y hy z hz => trans x (List.mem_cons_of_mem _ hx) y (List.mem_cons_of_mem _ hy) z (List.mem_cons_of_mem _ hz)

/-- Where there are no more places than there are things, and no two things can share a place, every place is taken. -/
theorem exists_partner : ∀ {xs ys : List α}, ys.length ≤ xs.length →
    (∀ x ∈ xs, ∃ y ∈ ys, R x y) → (xs.Pairwise fun x x' => ∀ y ∈ ys, R x y → R x' y → False) →
    ∀ y ∈ ys, ∃ x ∈ xs, R x y
  | [], ys, length, _, _, y, hy => by
    rw [List.length_eq_zero_iff.mp (Nat.le_zero.mp length)] at hy
    cases hy
  | x :: xs, ys, length, each, apart, y, hy => by
    -- The first thing takes its place with it: no other thing can share it.
    obtain ⟨z, hz, hxz⟩ := each x List.mem_cons_self
    obtain ⟨before, after, rfl⟩ := List.append_of_mem hz
    obtain ⟨alone, apart⟩ := List.pairwise_cons.mp apart
    have keep {w : α} (hw : w ∈ before ++ after) : w ∈ before ++ z :: after := by
      simp only [List.mem_append, List.mem_cons] at hw ⊢
      tauto
    have taken : ∀ x' ∈ xs, ∃ w ∈ before ++ after, R x' w := by
      intro x' hx'
      obtain ⟨w, hw, hxw⟩ := each x' (List.mem_cons_of_mem _ hx')
      simp only [List.mem_append, List.mem_cons] at hw
      rcases hw with hw | rfl | hw
      · exact ⟨w, List.mem_append_left _ hw, hxw⟩
      · exact (alone x' hx' w hz hxz hxw).elim
      · exact ⟨w, List.mem_append_right _ hw, hxw⟩
    have fewer : (before ++ after).length ≤ xs.length := by
      simp only [List.length_append, List.length_cons] at length ⊢
      omega
    have later := exists_partner fewer taken (apart.imp fun {u v} no w hw => no w (keep hw))
    simp only [List.mem_append, List.mem_cons] at hy
    rcases hy with hy | rfl | hy
    · obtain ⟨u, hu, huy⟩ := later y (List.mem_append_left _ hy)
      exact ⟨u, List.mem_cons_of_mem _ hu, huy⟩
    · exact ⟨x, List.mem_cons_self, hxz⟩
    · obtain ⟨u, hu, huy⟩ := later y (List.mem_append_right _ hy)
      exact ⟨u, List.mem_cons_of_mem _ hu, huy⟩

end Pairing

namespace Value
variable {a b : Value}

/-! ### Equality level by level -/

theorem eqItems_iff : ∀ {xs ys : List Value}, eqItems xs ys = true ↔ List.Forall₂ (fun x y => same x y = true) xs ys
  | [], [] => by simp [eqItems]
  | [], y :: ys => by simp [eqItems]
  | x :: xs, [] => by simp [eqItems]
  | x :: xs, y :: ys => by simp [eqItems, eqItems_iff, same]

theorem eqValues_iff : ∀ {xs : List (String × Value)} {ys : List Value},
    eqValues xs ys = true ↔ List.Forall₂ (fun x y => same x y = true) (xs.map Prod.snd) ys
  | [], [] => by simp [eqValues]
  | [], y :: ys => by simp [eqValues]
  | x :: xs, [] => by simp [eqValues]
  | (n, x) :: xs, y :: ys => by simp [eqValues, eqValues_iff, same]

theorem eqAttributes_iff : ∀ {xs ys : List (String × Value)}, xs.length = ys.length →
    (eqAttributes xs ys = true ↔ List.Forall₂ (fun x y => same x y = true) (xs.map Prod.snd) (ys.map Prod.snd))
  | [], [], _ => by simp [eqAttributes]
  | (n, x) :: xs, (m, y) :: ys, h => by simp [eqAttributes, eqAttributes_iff (Nat.succ.inj h), same]

theorem eqEntries_iff : ∀ {xs ys : List (Value × Value)}, eqEntries xs ys = true ↔
    List.Forall₂ (fun e d => same e.1 d.1 = true ∧ same e.2 d.2 = true) xs ys
  | [], [] => by simp [eqEntries]
  | [], y :: ys => by simp [eqEntries]
  | x :: xs, [] => by simp [eqEntries]
  | (k, x) :: xs, (l, y) :: ys => by simp [eqEntries, eqEntries_iff, same]

theorem eqAll_iff : ∀ {xs ys : List Value}, eqAll xs ys = true ↔ ∀ x ∈ xs, ∃ y ∈ ys, same x y = true
  | [], ys => by simp [eqAll]
  | x :: xs, ys => by simp [eqAll, eqAll_iff, same]

theorem same_set (f g : Bool) (xs ys : List Value) :
    same (.set f xs) (.set g ys) = (xs.length == ys.length && xs.all fun x => ys.any fun y => same x y) := by
  have each : eqAll xs ys = xs.all fun x => ys.any fun y => same x y := by
    rw [Bool.eq_iff_iff, eqAll_iff]
    simp
  simp [same, sameUndefined, eq, each]

theorem eqEntriesIn_iff : ∀ {xs ys : List (Value × Value)}, eqEntriesIn xs ys = true ↔
    ∀ e ∈ xs, ∃ d ∈ ys, same e.1 d.1 = true ∧ same e.2 d.2 = true
  | [], ys => by simp [eqEntriesIn]
  | (k, x) :: xs, ys => by simp [eqEntriesIn, eqEntriesIn_iff, same]

theorem eqFields_iff {names : List String} : ∀ {xs ys : List (String × Value)}, eqFields xs ys names = true ↔
    ∀ e ∈ xs, e.1 ∈ names → ∃ v, ys.lookup e.1 = some v ∧ same e.2 v = true
  | [], ys => by simp [eqFields]
  | (n, x) :: xs, ys => by
    rw [eqFields, Bool.and_eq_true, eqFields_iff, List.forall_mem_cons]
    refine and_congr_left fun _ => ?_
    by_cases hn : n ∈ names <;> rcases ys.lookup n with _ | v <;> simp [hn, same]

/-- Two values that count as equal, one level at a time. -/
inductive Alike : Value → Value → Prop where
  | scalar {a b x} (ha : a.Shows x) (hb : b.Shows x) : Alike a b
  | member {e n p q} : Alike (.member e n p) (.member e n q)
  | sequence {k xs ys} (items : List.Forall₂ (fun x y => same x y = true) xs ys) : Alike (.sequence k xs) (.sequence k ys)
  | set {f g xs ys} (length : xs.length = ys.length) (each : ∀ x ∈ xs, ∃ y ∈ ys, same x y = true) :
      Alike (.set f xs) (.set g ys)
  | ordered {xs ys} (entries : List.Forall₂ (fun e d => same e.1 d.1 = true ∧ same e.2 d.2 = true) xs ys) :
      Alike (.mapping .ordered xs) (.mapping .ordered ys)
  | mapping {k l xs ys} (free : ¬(k = .ordered ∧ l = .ordered)) (length : xs.length = ys.length)
      (each : ∀ e ∈ xs, ∃ d ∈ ys, same e.1 d.1 = true ∧ same e.2 d.2 = true) : Alike (.mapping k xs) (.mapping l ys)
  | object {c d serial own inherited own' inherited'} :
      Alike (.object c serial own inherited) (.object d serial own' inherited')
  | fields {c d s t own inherited own' inherited' names} (cls : c.serial = d.serial) (compared : c.fields = some names)
      (hown : ∀ e ∈ own, e.1 ∈ names → ∃ v, (own' ++ inherited').lookup e.1 = some v ∧ same e.2 v = true)
      (hinherited : ∀ e ∈ inherited, e.1 ∈ names → e.1 ∉ own.map Prod.fst →
        ∃ v, (own' ++ inherited').lookup e.1 = some v ∧ same e.2 v = true) :
      Alike (.object c s own inherited) (.object d t own' inherited')
  | record {r r' xs ys} (cls : r.cls = r'.cls) (identity : r.cls.isStructural = true ∨ r.serial = r'.serial)
      (attributes : r.cls.comparesAttributes = true →
        List.Forall₂ (fun x y => same x y = true) (xs.map Prod.snd) (ys.map Prod.snd)) : Alike (.record r xs) (.record r' ys)
  | items {k xs r ys} (collected : r.cls = .violations) (plain : k ≠ .deque)
      (items : List.Forall₂ (fun x y => same x y = true) xs (ys.map Prod.snd)) : Alike (.sequence k xs) (.record r ys)
  | violations {k xs r ys} (collected : r.cls = .violations) (plain : k ≠ .deque)
      (items : List.Forall₂ (fun x y => same x y = true) (xs.map Prod.snd) ys) : Alike (.record r xs) (.sequence k ys)

/-- Whether a value is compared without looking into it. -/
def isBare : Value → Bool
  | .sequence .. | .set .. | .mapping .. | .object .. | .record .. => false
  | _ => true

theorem Shows.isBare {x : Face} (h : a.Shows x) : a.isBare = true := by
  cases a with
  | sequence | set | mapping | object | record =>
    cases h with
    | number hv => cases hv
    | text hv => cases hv
  | _ => rfl

theorem eq_of_scalarEq {x : Face} (shown : a.Shows x) (h : scalarEq a b = true) : eq a b = true := by
  cases a with
  | member e n p => cases b <;> simp [eq, h]
  | sequence | set | mapping | object | record => cases shown.isBare
  | _ => simpa [eq] using h

theorem Alike.of_eq (ha : a.Sound) (hb : b.Sound) (h : eq a b = true) : Alike a b := by
  have scalar (h : scalarEq a b = true) : Alike a b := by
    obtain ⟨x, hx, hx'⟩ := Shows.of_scalarEq ha hb h
    exact .scalar hx hx'
  unfold eq at h
  split at h
  · split at h
    · obtain ⟨kind, items⟩ := Bool.and_eq_true_iff.mp h
      cases beq_iff_eq.mp kind
      exact .sequence (eqItems_iff.mp items)
    · simp only [Bool.and_eq_true, beq_iff_eq, bne_iff_ne] at h
      exact .items h.1.1 h.1.2 (eqItems_iff.mp h.2)
    · cases h
  · obtain ⟨length, each⟩ := Bool.and_eq_true_iff.mp h
    exact .set (beq_iff_eq.mp length) (eqAll_iff.mp each)
  · split at h
    · next k xs _ l ys =>
      obtain ⟨length, entries⟩ := Bool.and_eq_true_iff.mp h
      split at entries
      · next ordered =>
        obtain ⟨hk, hl⟩ := Bool.and_eq_true_iff.mp ordered
        cases beq_iff_eq.mp hk
        cases beq_iff_eq.mp hl
        exact .ordered (eqEntries_iff.mp entries)
      · next free =>
        exact .mapping (by simpa using free) (beq_iff_eq.mp length) (eqEntriesIn_iff.mp entries)
    · cases h
  · split at h
    · rcases Bool.or_eq_true_iff.mp h with named | h
      · simp only [Bool.and_eq_true, beq_iff_eq] at named
        obtain ⟨rfl, rfl⟩ := named
        exact .member
      · exact scalar h
    · exact scalar h
  · split at h
    · next c s own inherited _ d t own' inherited' =>
      rcases Bool.or_eq_true_iff.mp h with identical | h
      · cases beq_iff_eq.mp identical
        exact .object
      · split at h
        · cases h
        · next names compared =>
          unfold comparesByFields at compared
          split at compared
          · next cls =>
            obtain ⟨hown, hinherited⟩ := Bool.and_eq_true_iff.mp h
            rw [eqFields_iff] at hown hinherited
            exact .fields cls compared hown fun e he hn hno => hinherited e he (by simp [hn]; simpa using hno)
          · cases compared
    · cases h
  · split at h
    · simp only [Bool.and_eq_true, Bool.or_eq_true, Bool.not_eq_true', beq_iff_eq] at h
      obtain ⟨⟨cls, identity⟩, attributes⟩ := h
      refine .record cls identity fun compares => ?_
      rw [compares] at attributes
      obtain ⟨length, attributes⟩ := attributes.resolve_left (by simp)
      exact (eqAttributes_iff length).mp attributes
    · simp only [Bool.and_eq_true, beq_iff_eq, bne_iff_ne] at h
      exact .violations h.1.1 h.1.2 (eqValues_iff.mp h.2)
    · cases h
  · exact scalar h

theorem same_of_eq (h : eq a b = true) : same a b = true := by rw [same, h, Bool.or_true]

theorem Alike.same (ha : a.Sound) (hb : b.Sound) (h : Alike a b) : same a b = true := by
  cases h with
  | scalar hx hx' =>
    rcases Bool.or_eq_true_iff.mp ((scalar_same_iff ha hb).mpr ⟨_, hx, hx'⟩) with h | h
    · rw [Value.same, h, Bool.true_or]
    · exact same_of_eq (eq_of_scalarEq hx h)
  | member => exact same_of_eq (by simp [eq])
  | sequence items => exact same_of_eq (by rw [eq, eqItems_iff.mpr items]; simp)
  | set length each => exact same_of_eq (by rw [eq, eqAll_iff.mpr each, length]; simp)
  | ordered entries => exact same_of_eq (by rw [eq, eqEntries_iff.mpr entries, entries.length_eq]; simp)
  | @mapping k l xs ys free length each =>
    have free : (k == .ordered && l == .ordered) = false := by simpa using free
    exact same_of_eq (by rw [eq, free, eqEntriesIn_iff.mpr each, length]; simp)
  | object => exact same_of_eq (by simp [eq])
  | @fields c d s t own inherited own' inherited' names cls compared hown hinherited =>
    have compares : comparesByFields c d = some names := (if_pos cls).trans compared
    have later : eqFields inherited (own' ++ inherited') (names.filter fun f => !(own.map Prod.fst).contains f) = true := by
      refine eqFields_iff.mpr fun e he hn => ?_
      obtain ⟨hn, hno⟩ := List.mem_filter.mp hn
      exact hinherited e he hn (by simpa using hno)
    exact same_of_eq (by simp only [eq, compares, eqFields_iff.mpr hown, later, Bool.and_self, Bool.or_true])
  | record cls identity attributes =>
    refine same_of_eq ?_
    simp only [eq, Bool.and_eq_true, Bool.or_eq_true, Bool.not_eq_true', beq_iff_eq]
    refine ⟨⟨cls, identity⟩, ?_⟩
    cases compares : RecordClass.comparesAttributes _ with
    | false => exact .inl rfl
    | true =>
      have paired := attributes compares
      have length := paired.length_eq
      rw [List.length_map, List.length_map] at length
      exact .inr ⟨length, (eqAttributes_iff length).mpr paired⟩
  | items collected plain items => exact same_of_eq (by simp [eq, eqItems_iff.mpr items, collected, plain])
  | violations collected plain items => exact same_of_eq (by simp [eq, eqValues_iff.mpr items, collected, plain])

/-- Values count as equal when they are alike. -/
theorem same_iff_alike (ha : a.Sound) (hb : b.Sound) : same a b = true ↔ Alike a b := by
  refine ⟨fun h => ?_, Alike.same ha hb⟩
  rcases Bool.or_eq_true_iff.mp h with h | h
  · obtain ⟨x, hx, hx'⟩ := Shows.of_sameUndefined h
    exact .scalar hx hx'
  · exact .of_eq ha hb h

end Value

/-- Violations are equal as values when their kinds, their details and their paths are. -/
theorem Violation.same_toObject (x y : Violation) : x.toObject.same y.toObject =
    (x.kind == y.kind && (Value.mapping .view x.details).same (.mapping .view y.details) &&
      (Path.toObject x.path).same (Path.toObject y.path)) := by
  have text : (Value.text x.kind).same (.text y.kind) = (x.kind == y.kind) := Value.same_text _ _
  rw [← text, Bool.and_assoc]
  simp [toObject, Object.shown, Value.same, Value.sameUndefined, Value.eq, Value.eqAttributes, RecordClass.isStructural,
    RecordClass.comparesAttributes]

/-! ### Values of a program -/

/-- What a program has: the payloads of the members of its enumerations, by name, and its classes and its objects, by
number. -/
structure Program where
  payload : EnumRef → String → Value
  cls : Nat → DeclaredClass
  object : Nat → Value

namespace Value

/-- The values that are compared when a value is. -/
def parts : Value → List Value
  | .sequence _ items | .set _ items => items
  | .mapping _ entries => entries.map Prod.fst ++ entries.map Prod.snd
  | .object c _ own inherited => if c.fields.isSome then (own ++ inherited).map Prod.snd else []
  | .record r attributes => if r.cls.comparesAttributes then attributes.map Prod.snd else []
  | _ => []

/-- The values that are searched for when a value is compared: the members of a set and the keys of a mapping. -/
def sought : Value → List Value
  | .set _ items => items
  | .mapping _ entries => entries.map Prod.fst
  | _ => []

/-- What a value needs so that equality can be carried on from a value to the next: an ordered mapping equals a plain one
in every order, and a collection of violations equals lists and tuples. -/
def Carries : Value → Prop
  | .mapping k _ => k ≠ .ordered
  | .record r _ => r.cls ≠ .violations
  | _ => True

/-- A value that carries equality, as does everything in it. -/
inductive Firm : Value → Prop where
  | intro {v} (own : v.Carries) (each : ∀ x ∈ v.parts, Firm x) : Firm v

/-- A value as a program can make it, as far as its own level goes. -/
def Made (P : Program) : Value → Prop
  | .fraction _ den => den ≠ 0
  | .member e n payload => payload = P.payload e n
  | .set _ items => items.Pairwise fun x y => same x y = false
  | .mapping _ entries => entries.Pairwise fun e d => same e.1 d.1 = false
  | .object c serial own inherited => P.object serial = .object c serial own inherited ∧ P.cls c.serial = c ∧
      (own.map Prod.fst).Nodup ∧ (inherited.map Prod.fst).Nodup ∧
      ∀ names, c.fields = some names → ∀ n ∈ names, n ∈ (own ++ inherited).map Prod.fst
  | _ => True

/-- A value that a program can make, where whatever is searched for carries equality. -/
inductive Proper (P : Program) : Value → Prop where
  | intro {v} (made : v.Made P) (firm : ∀ x ∈ v.sought, x.Firm) (each : ∀ x ∈ v.parts, Proper P x) : Proper P v

variable {P : Program} {a b : Value}

theorem Made.sound (made : a.Made P) : a.Sound := by
  have whole (n : Int) : (Magnitude.ofInt n).Sound := by
    rintro num den h
    cases h
    exact Nat.one_ne_zero
  intro x y h
  rcases numeral?_cases h with ⟨z, rfl, rfl, rfl⟩ | ⟨hx, rfl⟩
  · exact ⟨Binary64.sound_magnitude _, Binary64.sound_magnitude _⟩
  refine ⟨?_, whole 0⟩
  unfold magnitude? at hx
  split at hx
  · cases hx
    exact whole _
  · cases hx
    exact whole _
  · cases hx
    exact Binary64.sound_magnitude _
  · cases hx
    exact Decimal.sound_magnitude _
  · cases hx
    rintro num den h
    cases h
    exact made
  · split at hx <;> cases hx
    exact whole _
  · cases hx

theorem Proper.made (h : a.Proper P) : a.Made P := by
  cases h
  assumption

theorem Proper.part {x : Value} (h : a.Proper P) (hx : x ∈ a.parts) : x.Proper P := by
  cases h with
  | intro _ _ each => exact each x hx

theorem Proper.firm {x : Value} (h : a.Proper P) (hx : x ∈ a.sought) : x.Firm := by
  cases h with
  | intro _ firm _ => exact firm x hx

theorem Firm.carries (h : a.Firm) : a.Carries := by
  cases h
  assumption

theorem Firm.part {x : Value} (h : a.Firm) (hx : x ∈ a.parts) : x.Firm := by
  cases h with
  | intro _ each => exact each x hx

section Entries
variable {k : MappingKind} {entries : List (Value × Value)} {e : Value × Value}

theorem key_mem_parts (h : e ∈ entries) : e.1 ∈ (mapping k entries).parts :=
  List.mem_append_left _ (List.mem_map_of_mem h)

theorem value_mem_parts (h : e ∈ entries) : e.2 ∈ (mapping k entries).parts :=
  List.mem_append_right _ (List.mem_map_of_mem h)

end Entries

theorem parts_record {r : RecordHead} {attributes : List (String × Value)} (compares : r.cls.comparesAttributes = true) :
    (record r attributes).parts = attributes.map Prod.snd := if_pos compares

/-- What an object has under a name is its own, or else inherited. -/
theorem lookup_attribute {own inherited : List (String × Value)} (hown : (own.map Prod.fst).Nodup)
    (hinherited : (inherited.map Prod.fst).Nodup) {n : String} {v : Value} : (own ++ inherited).lookup n = some v ↔
      (n, v) ∈ own ∨ n ∉ own.map Prod.fst ∧ (n, v) ∈ inherited := by
  have missing : own.lookup n = none ↔ n ∉ own.map Prod.fst := by
    rw [← Option.not_isSome_iff_eq_none, isSome_lookup hown, List.mem_map]
    simp only [eq_comm]
  rw [List.lookup_append, Option.or_eq_some_iff, lookup_eq_some hown, lookup_eq_some hinherited, missing]

section Objects
variable {c : DeclaredClass} {serial : Nat} {own inherited other : List (String × Value)} {names : List String}

theorem mem_parts_of_lookup (compared : c.fields = some names) {n : String} {v : Value}
    (h : (own ++ inherited).lookup n = some v) : v ∈ (object c serial own inherited).parts := by
  rw [Value.parts, if_pos (by rw [compared]; rfl)]
  obtain ⟨before, after, split, -⟩ := List.lookup_eq_some_iff.mp h
  rw [split]
  exact List.mem_map_of_mem (List.mem_append_right before List.mem_cons_self)

/-- Objects are compared by fields when under every name that is compared both have something, and the one counts as equal
to the other. -/
theorem Made.fields_iff (made : (object c serial own inherited).Made P) (compared : c.fields = some names) :
    ((∀ e ∈ own, e.1 ∈ names → ∃ v, other.lookup e.1 = some v ∧ same e.2 v = true) ∧
      ∀ e ∈ inherited, e.1 ∈ names → e.1 ∉ own.map Prod.fst → ∃ v, other.lookup e.1 = some v ∧ same e.2 v = true) ↔
      ∀ n ∈ names, ∃ v w, (own ++ inherited).lookup n = some v ∧ other.lookup n = some w ∧ same v w = true := by
  obtain ⟨-, -, distinct, distinct', complete⟩ := made
  constructor
  · rintro ⟨hown, hinherited⟩ n hn
    obtain ⟨⟨m, v⟩, he, rfl⟩ := List.mem_map.mp (complete names compared n hn)
    by_cases first : m ∈ own.map Prod.fst
    · obtain ⟨⟨m, u⟩, hu, rfl⟩ := List.mem_map.mp first
      obtain ⟨w, hw, huw⟩ := hown _ hu hn
      exact ⟨u, w, (lookup_attribute distinct distinct').mpr (.inl hu), hw, huw⟩
    · have he : (m, v) ∈ inherited := (List.mem_append.mp he).resolve_left fun he => first (List.mem_map_of_mem he)
      obtain ⟨w, hw, hvw⟩ := hinherited _ he hn first
      exact ⟨v, w, (lookup_attribute distinct distinct').mpr (.inr ⟨first, he⟩), hw, hvw⟩
  · intro pair
    have answer {n : String} {v : Value} (hn : n ∈ names) (hv : (own ++ inherited).lookup n = some v) :
        ∃ w, other.lookup n = some w ∧ same v w = true := by
      obtain ⟨v', w, hv', hw, hvw⟩ := pair n hn
      obtain rfl : v' = v := Option.some.inj (hv'.symm.trans hv)
      exact ⟨w, hw, hvw⟩
    refine ⟨fun e he hn => answer hn ?_, fun e he hn first => answer hn ?_⟩
    · exact (lookup_attribute distinct distinct').mpr (.inl he)
    · exact (lookup_attribute distinct distinct').mpr (.inr ⟨first, he⟩)

/-- A program has one object of each number. -/
theorem Made.eq_of_serial {d : DeclaredClass} {own' inherited' : List (String × Value)}
    (made : (object c serial own inherited).Made P) (made' : (object d serial own' inherited').Made P) :
    object c serial own inherited = object d serial own' inherited' :=
  made.1.symm.trans made'.1

theorem Made.cls_eq {d : DeclaredClass} {serial' : Nat} {own' inherited' : List (String × Value)}
    (made : (object c serial own inherited).Made P) (made' : (object d serial' own' inherited').Made P)
    (h : c.serial = d.serial) : c = d := by
  rw [← made.2.1, ← made'.2.1, h]

end Objects

/-! ### Carrying equality on, and turning it round -/

/-- Equality can be carried on along values that carry it. -/
theorem same_trans (ha : a.Proper P) : ∀ {b c : Value}, b.Proper P → c.Proper P → a.Firm → b.Firm → c.Firm →
    same a b = true → same b c = true → same a c = true := by
  induction ha with
  | @intro a own _ each ih =>
  intro b c hb hc fa fb fc hab hbc
  rw [same_iff_alike own.sound hb.made.sound] at hab
  rw [same_iff_alike hb.made.sound hc.made.sound] at hbc
  rw [same_iff_alike own.sound hc.made.sound]
  have step {x y z : Value} (hx : x ∈ a.parts) (hy : y ∈ b.parts) (hz : z ∈ c.parts) (hxy : same x y = true)
      (hyz : same y z = true) : same x z = true :=
    ih x hx (hb.part hy) (hc.part hz) (fa.part hx) (fb.part hy) (fc.part hz) hxy hyz
  cases hab with
  | scalar hx hx' => cases hbc with
    | scalar hy hy' => exact .scalar hx (hx'.unique hy ▸ hy')
    | @member e n p q =>
      obtain rfl : p = q := hb.made.trans hc.made.symm
      exact .scalar hx hx'
    | _ => cases hx'.isBare
  | @member e n p q =>
    obtain rfl : p = q := own.trans hb.made.symm
    exact hbc
  | sequence items => cases hbc with
    | scalar hy => cases hy.isBare
    | sequence items' => exact .sequence (forall₂_trans items items' fun x hx y hy z hz => step hx hy hz)
    | items collected => exact absurd collected fc.carries
  | set length each' => cases hbc with
    | scalar hy => cases hy.isBare
    | set length' each'' =>
      refine .set (length.trans length') fun x hx => ?_
      obtain ⟨y, hy, hxy⟩ := each' x hx
      obtain ⟨z, hz, hyz⟩ := each'' y hy
      exact ⟨z, hz, step hx hy hz hxy hyz⟩
  | ordered => exact absurd rfl fa.carries
  | mapping free length each' => cases hbc with
    | scalar hy => cases hy.isBare
    | ordered => exact absurd rfl fb.carries
    | mapping free' length' each'' =>
      refine .mapping (fun ordered => fa.carries ordered.1) (length.trans length') fun e he => ?_
      obtain ⟨d, hd, key, value⟩ := each' e he
      obtain ⟨g, hg, key', value'⟩ := each'' d hd
      refine ⟨g, hg, step ?_ ?_ ?_ key key', step ?_ ?_ ?_ value value'⟩
      · exact key_mem_parts he
      · exact key_mem_parts hd
      · exact key_mem_parts hg
      · exact value_mem_parts he
      · exact value_mem_parts hd
      · exact value_mem_parts hg
  | object =>
    rw [own.eq_of_serial hb.made]
    exact hbc
  | @fields c d s t own₁ inherited₁ own₂ inherited₂ names cls compared hown hinherited =>
    obtain rfl := own.cls_eq hb.made cls
    cases hbc with
    | scalar hy => cases hy.isBare
    | object =>
      rw [← hb.made.eq_of_serial hc.made]
      exact .fields rfl compared hown hinherited
    | @fields _ e _ u _ _ own₃ inherited₃ names' cls' compared' hown' hinherited' =>
      obtain rfl := hb.made.cls_eq hc.made cls'
      obtain rfl : names = names' := Option.some.inj (compared.symm.trans compared')
      have first := (own.fields_iff compared).mp ⟨hown, hinherited⟩
      have next := (hb.made.fields_iff compared).mp ⟨hown', hinherited'⟩
      have both := (own.fields_iff compared).mpr fun n hn => by
        obtain ⟨v, w, hv, hw, hvw⟩ := first n hn
        obtain ⟨w', x, hw', hx, hwx⟩ := next n hn
        obtain rfl : w = w' := Option.some.inj (hw.symm.trans hw')
        refine ⟨v, x, hv, hx, step ?_ ?_ ?_ hvw hwx⟩
        · exact mem_parts_of_lookup compared hv
        · exact mem_parts_of_lookup compared hw
        · exact mem_parts_of_lookup compared hx
      exact .fields rfl compared both.1 both.2
  | record cls identity attributes => cases hbc with
    | scalar hy => cases hy.isBare
    | record cls' identity' attributes' =>
      refine .record (cls.trans cls') ?_ fun compares => ?_
      · rw [← cls] at identity'
        exact identity.elim .inl fun first => identity'.imp_right first.trans
      · have middle : RecordClass.comparesAttributes _ = true := cls ▸ compares
        have last : RecordClass.comparesAttributes _ = true := cls' ▸ middle
        refine forall₂_trans (attributes compares) (attributes' middle) fun x hx y hy z hz => step ?_ ?_ ?_
        · rwa [parts_record compares]
        · rwa [parts_record middle]
        · rwa [parts_record last]
    | violations collected => exact absurd collected fb.carries
  | items collected => exact absurd collected fb.carries
  | violations collected => exact absurd collected fa.carries

/-- Equality of proper values goes both ways. -/
theorem same_symm (ha : a.Proper P) : ∀ {b : Value}, b.Proper P → same a b = true → same b a = true := by
  induction ha with
  | @intro a made firm each ih =>
  intro b hb hab
  have ha : a.Proper P := .intro made firm each
  rw [same_iff_alike made.sound hb.made.sound] at hab
  rw [same_iff_alike hb.made.sound made.sound]
  have back {x y : Value} (hx : x ∈ a.parts) (hy : y ∈ b.parts) (hxy : same x y = true) : same y x = true :=
    ih x hx (hb.part hy) hxy
  -- Two parts with one partner would count as equal, there and back again.
  have shared {x x' y : Value} (hx : x ∈ a.parts) (hx' : x' ∈ a.parts) (hy : y ∈ b.parts) (fx : x.Firm) (fx' : x'.Firm)
      (fy : y.Firm) (apart : same x x' = false) (hxy : same x y = true) (hxy' : same x' y = true) : False := by
    have together := same_trans (ha.part hx) (hb.part hy) (ha.part hx') fx fy fx' hxy (back hx' hy hxy')
    rw [apart] at together
    cases together
  cases hab with
  | scalar hx hx' => exact .scalar hx' hx
  | member => exact .member
  | sequence items => exact .sequence (forall₂_symm items fun x hx y hy => back hx hy)
  | set length each' =>
    refine .set length.symm fun y hy => ?_
    obtain ⟨x, hx, hxy⟩ := exists_partner length.ge each' (made.imp_of_mem fun {x x'} hx hx' apart y hy =>
      shared hx hx' hy (firm x hx) (firm x' hx') (hb.firm hy) apart) y hy
    exact ⟨x, hx, back hx hy hxy⟩
  | ordered entries =>
    exact .ordered (forall₂_symm entries fun e he d hd pair =>
      ⟨back (key_mem_parts he) (key_mem_parts hd) pair.1, back (value_mem_parts he) (value_mem_parts hd) pair.2⟩)
  | mapping free length each' =>
    refine .mapping (fun ordered => free ordered.symm) length.symm fun d hd => ?_
    obtain ⟨e, he, key, value⟩ := exists_partner length.ge each' (made.imp_of_mem fun {e e'} he he' apart d hd pair pair' =>
      shared (key_mem_parts he) (key_mem_parts he') (key_mem_parts hd) (firm _ (List.mem_map_of_mem he))
        (firm _ (List.mem_map_of_mem he')) (hb.firm (List.mem_map_of_mem hd)) apart pair.1 pair'.1) d hd
    exact ⟨e, he, back (key_mem_parts he) (key_mem_parts hd) key, back (value_mem_parts he) (value_mem_parts hd) value⟩
  | object => exact .object
  | @fields c d s t own inherited own' inherited' names cls compared hown hinherited =>
    obtain rfl := made.cls_eq hb.made cls
    have pairs := (made.fields_iff compared).mp ⟨hown, hinherited⟩
    have pairs' := (hb.made.fields_iff compared).mpr fun n hn => by
      obtain ⟨v, w, hv, hw, hvw⟩ := pairs n hn
      exact ⟨w, v, hw, hv, back (mem_parts_of_lookup compared hv) (mem_parts_of_lookup compared hw) hvw⟩
    exact .fields rfl compared pairs'.1 pairs'.2
  | record cls identity attributes =>
    refine .record cls.symm (cls ▸ identity.imp_right Eq.symm) fun compares => ?_
    have compares' : RecordClass.comparesAttributes _ = true := cls ▸ compares
    refine forall₂_symm (attributes compares') fun x hx y hy => back ?_ ?_
    · rwa [parts_record compares']
    · rwa [parts_record compares]
  | @items _ _ r _ collected plain items =>
    have compares : r.cls.comparesAttributes = true := by rw [collected]; rfl
    exact .violations collected plain (forall₂_symm items fun x hx y hy => back hx (by rwa [parts_record compares]))
  | @violations _ _ r _ collected plain items =>
    have compares : r.cls.comparesAttributes = true := by rw [collected]; rfl
    exact .items collected plain (forall₂_symm items fun x hx y hy => back (by rwa [parts_record compares]) hy)

end Value

/-! ### Every value equals itself -/

theorem Magnitude.same_scaled (negative : Bool) (coefficient base : Nat) (exponent : Int) :
    (scaled negative coefficient base exponent).same (scaled negative coefficient base exponent) = true := by
  cases exponent <;> simp [scaled, same]

theorem Binary64.nan_or_same : ∀ x : Binary64, (∃ tag, x = .nan tag) ∨ x.magnitude.same x.magnitude = true
  | .nan tag => .inl ⟨tag, rfl⟩
  | .infinity negative => .inr (by cases negative <;> rfl)
  | .finite negative m e => .inr (Magnitude.same_scaled negative m 2 e)

theorem Decimal.nan_or_same : ∀ d : Decimal, (∃ tag negative, d = .nan tag negative) ∨ d.magnitude.same d.magnitude = true
  | .nan tag negative => .inl ⟨tag, negative, rfl⟩
  | .infinity negative => .inr (by cases negative <;> rfl)
  | .finite negative c e => .inr (Magnitude.same_scaled negative c 10 e)

namespace Value

/-- Every value counts as equal to itself, an undefined number as the object that it is. -/
theorem same_self (v : Value) : same v v = true := by
  rw [same, Bool.or_eq_true]
  cases v with
  | float x =>
    rcases x.nan_or_same with ⟨tag, rfl⟩ | place
    · exact .inl (by simp [sameUndefined])
    · exact .inr (by simp [eq, scalarEq, magnitude?, place])
  | decimal d =>
    rcases d.nan_or_same with ⟨tag, negative, rfl⟩ | place
    · exact .inl (by simp [sameUndefined])
    · exact .inr (by simp [eq, scalarEq, magnitude?, place])
  | complex z =>
    rcases z.re.nan_or_same with ⟨tag, h⟩ | re
    · exact .inl (by simp [sameUndefined, Complex.isNaN, Binary64.isNaN, h])
    rcases z.im.nan_or_same with ⟨tag, h⟩ | im
    · exact .inl (by simp [sameUndefined, Complex.isNaN, Binary64.isNaN, h])
    · exact .inr (by simp [eq, scalarEq, magnitude?, Complex.same, re, im])
  | moment m =>
    have now : ((m.comparable? m).map fun p => p.1 == p.2).getD false = true := by
      rw [Moment.same_iff]
      cases m.instant? <;> simp
    exact .inr (by simpa [eq, scalarEq, magnitude?] using now)
  | sequence k xs =>
    have each : eqItems xs xs = true := eqItems_iff.mpr (List.forall₂_same.mpr fun x hx => same_self x)
    exact .inr (by simp [eq, each])
  | set f xs =>
    have each : eqAll xs xs = true := eqAll_iff.mpr fun x hx => ⟨x, hx, same_self x⟩
    exact .inr (by simp [eq, each])
  | mapping k xs =>
    have each : ∀ e ∈ xs, same e.1 e.1 = true ∧ same e.2 e.2 = true := fun e he => ⟨same_self e.1, same_self e.2⟩
    have inOrder : eqEntries xs xs = true := eqEntries_iff.mpr (List.forall₂_same.mpr each)
    have anyOrder : eqEntriesIn xs xs = true := eqEntriesIn_iff.mpr fun e he => ⟨e, he, each e he⟩
    exact .inr (by simp [eq, inOrder, anyOrder])
  | record r xs =>
    have each : eqAttributes xs xs = true := by
      refine (eqAttributes_iff rfl).mpr (List.forall₂_same.mpr fun x hx => ?_)
      obtain ⟨e, he, rfl⟩ := List.mem_map.mp hx
      exact same_self e.2
    exact .inr (by simp [eq, each])
  | object | member => exact .inr (by simp [eq])
  | _ => exact .inr (by simp [eq, scalarEq, magnitude?, sameRange, Magnitude.ofInt, Magnitude.same, asText?])
termination_by v.depth
decreasing_by
  · have := depth_le_depthItems hx
    simp only [depth]
    omega
  · have := depth_le_depthItems hx
    simp only [depth]
    omega
  · have := (depth_le_depthEntries he).1
    simp only [depth]
    omega
  · have := (depth_le_depthEntries he).2
    simp only [depth]
    omega
  · have := depth_le_depthAttributes he
    simp only [depth]
    omega

end Value

end Conform
