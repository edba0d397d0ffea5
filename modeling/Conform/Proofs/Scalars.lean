import Conform.Proofs.Holding
import Mathlib.Data.Rat.Lemmas

/-!
What values that hold no others are compared by. Such a value shows one thing when it is compared (`Value.Shows`): a
number the places of its two parts, in lowest terms, a text its characters, a range its length and as much of its start
and its step as that leaves open. Two of them count as equal just when they show the same (`Value.scalar_same_iff`).
-/

namespace Conform

namespace Magnitude

/-- A place with its ratio in lowest terms. -/
def reduced : Magnitude → Magnitude
  | .ratio num den => .ratio (mkRat num den).num (mkRat num den).den
  | m => m

/-- A place whose ratio is one of numbers. -/
def Sound (m : Magnitude) : Prop := ∀ num den, m = .ratio num den → den ≠ 0

theorem same_iff {a b : Magnitude} (ha : a.Sound) (hb : b.Sound) :
    a.same b = true ↔ a ≠ .undefined ∧ a.reduced = b.reduced := by
  cases a <;> cases b <;> simp [same, reduced]
  rename_i n d n' d'
  rw [← Rat.mkRat_eq_iff (ha n d rfl) (hb n' d' rfl)]
  constructor
  · intro h
    rw [h]
    exact ⟨rfl, rfl⟩
  · rintro ⟨h, h'⟩
    exact Rat.ext h h'

theorem same_comm (a b : Magnitude) : a.same b = b.same a := by
  cases a <;> cases b <;> simp [same, eq_comm]

theorem sound_scaled (negative : Bool) (coefficient : Nat) {base : Nat} (hb : base ≠ 0) (exponent : Int) :
    (scaled negative coefficient base exponent).Sound := by
  intro num den h
  cases exponent with
  | ofNat e =>
    cases h
    exact Nat.one_ne_zero
  | negSucc e =>
    cases h
    exact pow_ne_zero _ hb

end Magnitude

theorem Binary64.sound_magnitude (x : Binary64) : x.magnitude.Sound := by
  unfold magnitude
  split
  · nofun
  · split <;> nofun
  · exact Magnitude.sound_scaled _ _ (by decide) _

theorem Binary64.magnitude_of_isNaN {x : Binary64} (h : x.isNaN = true) : x.magnitude = .undefined := by
  cases x <;> first | rfl | cases h

theorem Decimal.sound_magnitude (d : Decimal) : d.magnitude.Sound := by
  unfold magnitude
  split
  · nofun
  · split <;> nofun
  · exact Magnitude.sound_scaled _ _ (by decide) _

/-- A number is at the place of zero when it is a zero. -/
theorem Binary64.same_zero (x : Binary64) : (Magnitude.ofInt 0).same x.magnitude = x.isZero := by
  rcases x with _ | negative | ⟨negative, m, e⟩
  · rfl
  · cases negative <;> rfl
  · rcases m with _ | m
    · rcases e with e | e <;> cases negative <;> simp [magnitude, Magnitude.scaled, Magnitude.ofInt, Magnitude.same, isZero]
    · rcases e with e | e <;> cases negative <;>
        simp [magnitude, Magnitude.scaled, Magnitude.ofInt, Magnitude.same, isZero] <;> omega

/-- Two moments are equal when they are at one instant, or at one time of wall clocks where neither has an offset. -/
theorem Moment.same_iff {m n : Moment} : ((m.comparable? n).map fun p => p.1 == p.2).getD false = true ↔
    (∃ i, m.instant? = some i ∧ n.instant? = some i) ∨
      m.instant? = none ∧ n.instant? = none ∧ m.wallClock = n.wallClock := by
  unfold comparable?
  -- The clocks stay closed.
  generalize m.instant? = a, n.instant? = b, m.wallClock = x, n.wallClock = y
  cases a <;> cases b <;> grind

/-- The places of the real and of the imaginary part, for values that are numbers. -/
def Value.numeral? : Value → Option (Magnitude × Magnitude)
  | .complex z => some (z.re.magnitude, z.im.magnitude)
  | v => v.magnitude?.map fun x => (x, .ofInt 0)

/-- A value that is no number, or one whose parts have places. -/
def Value.Sound (v : Value) : Prop := ∀ x y, v.numeral? = some (x, y) → x.Sound ∧ y.Sound

/-- What a value that holds no others is compared by. -/
inductive Face where
  | number (re im : Magnitude)
  | undefined (v : Value)
  | text (s : String)
  | moment (aware : Bool) (time : Int)
  | range (length : Nat) (start step : Option Int)
  | plain (v : Value)

/-- What a value shows when it is compared. An undefined number shows which object it is; the sign of an undefined
decimal is not part of that. -/
inductive Value.Shows : Value → Face → Prop where
  | number {v x y} (hv : v.numeral? = some (x, y)) (hx : x ≠ .undefined) (hy : y ≠ .undefined) :
      Value.Shows v (.number x.reduced y.reduced)
  | float {tag} : Value.Shows (.float (.nan tag)) (.undefined (.float (.nan tag)))
  | decimal {tag negative} : Value.Shows (.decimal (.nan tag negative)) (.undefined (.decimal (.nan tag false)))
  | complex {z} (hz : z.isNaN = true) : Value.Shows (.complex z) (.undefined (.complex z))
  | text {v s} (hv : v.asText? = some s) : Value.Shows v (.text s)
  | absent : Value.Shows .absent (.plain .absent)
  | date {d} : Value.Shows (.date d) (.plain (.date d))
  | aware {m i} (hm : m.instant? = some i) : Value.Shows (.moment m) (.moment true i)
  | naive {m i} (hm : m.instant? = none) (time : m.wallClock = i) : Value.Shows (.moment m) (.moment false i)
  | bytes {mutable bs} : Value.Shows (.bytes mutable bs) (.plain (.bytes false bs))
  | range {start stop step n} (hn : rangeLength start stop step = n) :
      Value.Shows (.range start stop step)
        (.range n (if n = 0 then none else some start) (if n ≤ 1 then none else some step))
  | pattern {s f} : Value.Shows (.pattern s f) (.plain (.pattern s f))
  | function {f} : Value.Shows (.function f) (.plain (.text f.name))
  | cls {c attributes} : Value.Shows (.cls c attributes) (.plain (.cls c []))
  | bag {serial items} : Value.Shows (.bag serial items) (.plain (.bag serial []))

namespace Value
variable {a b : Value}

theorem numeral?_of_magnitude? {x : Magnitude} (h : a.magnitude? = some x) : a.numeral? = some (x, .ofInt 0) := by
  unfold numeral?
  split
  · cases h
  · rw [h]
    rfl

theorem numeral?_cases {x y : Magnitude} (h : a.numeral? = some (x, y)) :
    (∃ z, a = .complex z ∧ x = z.re.magnitude ∧ y = z.im.magnitude) ∨ a.magnitude? = some x ∧ y = .ofInt 0 := by
  unfold numeral? at h
  split at h
  · next z =>
    cases h
    exact .inl ⟨z, rfl, rfl, rfl⟩
  · obtain ⟨m, hm, h⟩ := Option.map_eq_some_iff.mp h
    cases h
    exact .inr ⟨hm, rfl⟩

/-- Numbers are equal when both of their parts are. -/
theorem scalarEq_numerals {x y x' y' : Magnitude} (ha : a.numeral? = some (x, y)) (hb : b.numeral? = some (x', y')) :
    scalarEq a b = (x.same x' && y.same y') := by
  have zero : (Magnitude.ofInt 0).same (.ofInt 0) = true := rfl
  -- Without an imaginary part a complex number is compared as the real number that it is.
  have real (z : Complex) (x : Magnitude) : ((z.magnitude?.map x.same).getD false)
      = (x.same z.re.magnitude && (Magnitude.ofInt 0).same z.im.magnitude) := by
    rw [Complex.magnitude?, Binary64.same_zero]
    cases z.im.isZero <;> simp
  rcases numeral?_cases ha with ⟨z, rfl, rfl, rfl⟩ | ⟨hx, rfl⟩ <;> rcases numeral?_cases hb with ⟨w, rfl, rfl, rfl⟩ | ⟨hx', rfl⟩
  · rfl
  · have none : (Value.complex z).magnitude? = none := rfl
    simp only [scalarEq, none, hx', real, Magnitude.same_comm x', Magnitude.same_comm (.ofInt 0)]
  · have none : (Value.complex w).magnitude? = none := rfl
    simp only [scalarEq, none, hx, real]
  · simp only [scalarEq, hx, hx', zero, Bool.and_true]

theorem sameRange_iff {a b c a' b' c' : Int} : sameRange a b c a' b' c' = true ↔
    ∃ x, Shows (.range a b c) x ∧ Shows (.range a' b' c') x := by
  have shown {a b c : Int} {x : Face} (h : Shows (.range a b c) x) : x = .range (rangeLength a b c)
      (if rangeLength a b c = 0 then none else some a) (if rangeLength a b c ≤ 1 then none else some c) := by
    cases h with
    | number hv => cases hv
    | text hv => cases hv
    | range hn => rw [hn]
  constructor
  · intro h
    refine ⟨_, .range rfl, ?_⟩
    simp only [sameRange, Bool.and_eq_true, Bool.or_eq_true, beq_iff_eq] at h
    obtain ⟨length, h⟩ := h
    have start : (if rangeLength a b c = 0 then none else some a) = if rangeLength a' b' c' = 0 then none else some a' := by
      grind
    have step : (if rangeLength a b c ≤ 1 then none else some c) = if rangeLength a' b' c' ≤ 1 then none else some c' := by
      grind
    rw [start, step, length]
    exact .range rfl
  · rintro ⟨x, h, h'⟩
    have same := (shown h).symm.trans (shown h')
    simp only [Face.range.injEq] at same
    obtain ⟨length, start, step⟩ := same
    simp only [sameRange, Bool.and_eq_true, Bool.or_eq_true, beq_iff_eq]
    grind

theorem Shows.of_same {x y x' y' : Magnitude} (ha : a.Sound) (hb : b.Sound) (hx : a.numeral? = some (x, y))
    (hx' : b.numeral? = some (x', y')) (re : x.same x' = true) (im : y.same y' = true) : ∃ x, a.Shows x ∧ b.Shows x := by
  obtain ⟨ra, ia⟩ := ha _ _ hx
  obtain ⟨rb, ib⟩ := hb _ _ hx'
  obtain ⟨hre, re_eq⟩ := (Magnitude.same_iff ra rb).mp re
  obtain ⟨him, im_eq⟩ := (Magnitude.same_iff ia ib).mp im
  have hre' := ((Magnitude.same_iff rb ra).mp (Magnitude.same_comm x x' ▸ re)).1
  have him' := ((Magnitude.same_iff ib ia).mp (Magnitude.same_comm y y' ▸ im)).1
  refine ⟨_, .number hx hre him, ?_⟩
  rw [re_eq, im_eq]
  exact .number hx' hre' him'

theorem Shows.of_scalarEq (ha : a.Sound) (hb : b.Sound) (h : scalarEq a b = true) : ∃ x, a.Shows x ∧ b.Shows x := by
  have numbers {x y x' y' : Magnitude} (hx : a.numeral? = some (x, y)) (hx' : b.numeral? = some (x', y')) :
      ∃ x, a.Shows x ∧ b.Shows x := by
    rw [scalarEq_numerals hx hx', Bool.and_eq_true] at h
    exact Shows.of_same ha hb hx hx' h.1 h.2
  have h' := h
  unfold scalarEq at h'
  split at h'
  · next hx hx' => exact numbers (numeral?_of_magnitude? hx) (numeral?_of_magnitude? hx')
  · next hx _ =>
    split at h'
    · exact numbers (numeral?_of_magnitude? hx) rfl
    · cases h'
  · next hx' =>
    split at h'
    · exact numbers rfl (numeral?_of_magnitude? hx')
    · cases h'
  · split at h'
    · exact ⟨_, .absent, .absent⟩
    · exact numbers rfl rfl
    · obtain rfl := beq_iff_eq.mp h'
      exact ⟨_, .date, .date⟩
    · rcases Moment.same_iff.mp h' with ⟨i, hm, hn⟩ | ⟨hm, hn, time⟩
      · exact ⟨_, .aware hm, .aware hn⟩
      · exact ⟨_, .naive hm time, .naive hn rfl⟩
    · obtain rfl := beq_iff_eq.mp h'
      exact ⟨_, .bytes, .bytes⟩
    · exact sameRange_iff.mp h'
    · simp only [Bool.and_eq_true, beq_iff_eq] at h'
      obtain ⟨rfl, rfl⟩ := h'
      exact ⟨_, .pattern, .pattern⟩
    · next f g _ _ =>
      have same : f.name = g.name := beq_iff_eq.mp h'
      exact ⟨_, .function, same ▸ .function⟩
    · obtain rfl := beq_iff_eq.mp h'
      exact ⟨_, .cls, .cls⟩
    · obtain rfl := beq_iff_eq.mp h'
      exact ⟨_, .bag, .bag⟩
    · split at h'
      · next s t hs ht =>
        obtain rfl := beq_iff_eq.mp h'
        exact ⟨_, .text hs, .text ht⟩
      · cases h'

theorem Shows.of_sameUndefined (h : sameUndefined a b = true) : ∃ x, a.Shows x ∧ b.Shows x := by
  unfold sameUndefined at h
  split at h
  · obtain rfl := beq_iff_eq.mp h
    exact ⟨_, .float, .float⟩
  · obtain rfl := beq_iff_eq.mp h
    exact ⟨_, .decimal, .decimal⟩
  · obtain ⟨hz, h⟩ := Bool.and_eq_true_iff.mp h
    obtain rfl := beq_iff_eq.mp h
    exact ⟨_, .complex hz, .complex hz⟩
  · cases h

theorem asText?_cases {s : String} (h : a.asText? = some s) :
    a = .text s ∨ ∃ e n, a = .member e n (.text s) ∧ e.base = .text := by
  unfold asText? at h
  split at h
  · cases h
    exact .inl rfl
  · split at h
    · cases h
      exact .inr ⟨_, _, rfl, ‹_›⟩
    · cases h
  · cases h

theorem scalarEq_texts {s : String} (ha : a.asText? = some s) (hb : b.asText? = some s) : scalarEq a b = true := by
  rcases asText?_cases ha with rfl | ⟨e, n, rfl, he⟩ <;> rcases asText?_cases hb with rfl | ⟨e', n', rfl, he'⟩ <;>
    simp [scalarEq, magnitude?, asText?, *]

/-- Values that hold no others count as equal when they show the same. -/
theorem scalar_same_iff (ha : a.Sound) (hb : b.Sound) :
    (sameUndefined a b || scalarEq a b) = true ↔ ∃ x, a.Shows x ∧ b.Shows x := by
  rw [Bool.or_eq_true]
  constructor
  · rintro (h | h)
    · exact Shows.of_sameUndefined h
    · exact Shows.of_scalarEq ha hb h
  · rintro ⟨x, hx, hx'⟩
    generalize same : x = x' at hx'
    cases hx with
    | number hv hre him =>
      cases hx' with
      | number hv' hre' him' =>
        obtain ⟨re, im⟩ := Face.number.inj same
        right
        rw [scalarEq_numerals hv hv', (Magnitude.same_iff (ha _ _ hv).1 (hb _ _ hv').1).mpr ⟨hre, re⟩,
          (Magnitude.same_iff (ha _ _ hv).2 (hb _ _ hv').2).mpr ⟨him, im⟩]
        rfl
      | _ => cases same
    | text hv =>
      cases hx' with
      | text hv' =>
        cases same
        exact .inr (scalarEq_texts hv hv')
      | _ => cases same
    | range hn =>
      cases hx' with
      | range hn' => exact .inr (sameRange_iff.mpr ⟨_, .range hn, same ▸ .range hn'⟩)
      | _ => cases same
    | aware hm =>
      cases hx' with
      | aware hm' =>
        cases same
        exact .inr (Moment.same_iff.mpr (.inl ⟨_, hm, hm'⟩))
      | _ => cases same
    | naive hm time =>
      cases hx' with
      | naive hm' time' =>
        have time : _ = _ := time.trans ((Face.moment.inj same).2.trans time'.symm)
        exact .inr (Moment.same_iff.mpr (.inr ⟨hm, hm', time⟩))
      | _ => cases same
    | function =>
      cases hx' with
      | function => exact .inr (beq_iff_eq.mpr (Value.text.inj (Face.plain.inj same)))
      | _ => cases same
    | _ =>
      cases hx' <;> cases same
      simp [sameUndefined, scalarEq, magnitude?, *]

theorem Shows.eq_number {x y : Magnitude} {f : Face} (hv : a.numeral? = some (x, y)) (hx : x ≠ .undefined)
    (hy : y ≠ .undefined) (h : a.Shows f) : f = .number x.reduced y.reduced := by
  cases h with
  | number hv' =>
    cases hv.symm.trans hv'
    rfl
  | float | decimal =>
    cases hv
    exact absurd rfl hx
  | complex hz =>
    cases hv
    rcases Bool.or_eq_true_iff.mp hz with hz | hz
    · exact absurd (Binary64.magnitude_of_isNaN hz) hx
    · exact absurd (Binary64.magnitude_of_isNaN hz) hy
  | text ht => rcases asText?_cases ht with rfl | ⟨e, n, rfl, -⟩ <;> cases hv
  | _ => cases hv

theorem Shows.eq_text {s : String} {f : Face} (hv : a.asText? = some s) (h : a.Shows f) : f = .text s := by
  cases h with
  | number hv' => rcases asText?_cases hv with rfl | ⟨e, n, rfl, -⟩ <;> cases hv'
  | text hv' =>
    cases hv.symm.trans hv'
    rfl
  | _ => cases hv

/-- A value shows one thing only. -/
theorem Shows.unique {f g : Face} (hf : a.Shows f) (hg : a.Shows g) : f = g := by
  have hf' := hf
  have hg' := hg
  cases hg with
  | number hv hx hy => exact hf'.eq_number hv hx hy
  | text hv => exact hf'.eq_text hv
  | _ => cases hf with
    | number hv hx hy => exact (hg'.eq_number hv hx hy).symm
    | text hv => exact (hg'.eq_text hv).symm
    | _ => simp_all

end Value

end Conform
