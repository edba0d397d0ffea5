import Conform.Proofs.Bounds

/-!
Bounds and the orders that they stand for. A lower bound is meant to let the values pass that are at least the bound,
and an upper bound those that are at most it. What the checks ask is the opposite question, whether the value is
strictly beyond the bound, and let it pass when it is not. For values that are totally ordered this comes to the same;
for two sets of which neither contains the other, and next to an undefined number, neither the one nor the other holds
(`Value.Incomparable`), and the value passes all the same (`passes_bound`).
-/

namespace Conform

/-- The fault of the opposite question: `b <= a` fails as `a >= b` does, with the sides exchanged. -/
def Fault.flipInclusive : Fault → Fault
  | .unordered ">=" a b => .unordered "<=" b a
  | f => f

@[simp] theorem mapError_eq_ok {α : Type} {g : Fault → Fault} {e : Except Fault α} {a : α} :
    e.mapError g = .ok a ↔ e = .ok a := by
  cases e <;> simp [Except.mapError]

namespace Magnitude
variable {x y : Magnitude}

/-- Two places that are defined are ordered one way or the other. -/
theorem atLeast_eq (hx : x ≠ .undefined) (hy : y ≠ .undefined) : (y.below x || x.same y) = !x.below y := by
  cases x <;> cases y <;> simp_all [below, same]
  rw [Bool.eq_iff_iff]
  simp
  omega

theorem unordered (h : x = .undefined ∨ y = .undefined) : x.below y = false ∧ (y.below x || x.same y) = false := by
  rcases h with rfl | rfl
  · cases y <;> exact ⟨rfl, rfl⟩
  · cases x <;> exact ⟨rfl, rfl⟩

end Magnitude

namespace Value

/-! ### The other order -/

/-- What two values that hold no others are compared by. -/
inductive Pairing where
  | numbers (x y : Magnitude)
  | days (m n : Nat)
  | instants (x y : Int)
  | bytes (xs ys : List UInt8)
  | sets (xs ys : List Value)
  | texts (s t : String)
  /-- A decimal next to an undefined number, of which nothing can be asked. -/
  | undefinedDecimal
  | apart

def pairing (a b : Value) : Pairing :=
  match a.magnitude?, b.magnitude? with
  | some x, some y =>
    if (a.isBuiltin .decimal || b.isBuiltin .decimal) && (x == .undefined || y == .undefined) then .undefinedDecimal
    else .numbers x y
  | _, _ =>
    match a, b with
    | .date d, .date e => .days d.ordinal e.ordinal
    | .moment m, .moment n => match m.comparable? n with
      | some (x, y) => .instants x y
      | none => .apart
    | .bytes _ xs, .bytes _ ys => .bytes xs ys
    | .set _ xs, .set _ ys => .sets xs ys
    | _, _ => match a.asText?, b.asText? with
      | some s, some t => .texts s t
      | _, _ => .apart

/-- Why it cannot be said whether a value is at least another. -/
def inclusiveFault (a b : Value) : Fault :=
  match a, b with
  | .moment _, .moment _ => .mixedOffsets
  | .moment _, .date _ | .date _, .moment _ => .momentAndDate
  | a, b => .unordered ">=" a.fullName b.fullName

/-- Whether a value that holds no others is at least another. A set is at least the sets that it contains. -/
def scalarGe (a b : Value) : Except Fault Bool :=
  match a.pairing b with
  | .numbers x y => .ok (y.below x || x.same y)
  | .days m n => .ok (n ≤ m)
  | .instants x y => .ok (y ≤ x)
  | .bytes xs ys => .ok (bytesLt ys xs || xs == ys)
  | .sets xs ys => .ok (ys.length ≤ xs.length && eqAll ys xs)
  | .texts s t => .ok (t < s || s == t)
  | .undefinedDecimal => .error .undefinedDecimal
  | .apart => .error (inclusiveFault a b)

mutual

def ge : Value → Value → Except Fault Bool
  | .sequence k xs, b =>
    match b with
    | .sequence k' ys => if k = k' then geItems xs ys else .error (inclusiveFault (.sequence k xs) b)
    | b => .error (inclusiveFault (.sequence k xs) b)
  | a, b => scalarGe a b

/-- Whether one list is at least another: by their first difference, else by their lengths. -/
def geItems : List Value → List Value → Except Fault Bool
  | _, [] => .ok true
  | [], _ :: _ => .ok false
  | x :: xs, y :: ys => if same x y then geItems xs ys else ge x y

end

def le (a b : Value) : Except Fault Bool := (ge b a).mapError Fault.flipInclusive

/-- Two values of which neither the first is below the second nor at least the second: a number is undefined, the
first set is neither properly contained in the second nor contains it, or so it is with the first items in which two
sequences differ. -/
inductive Incomparable : Value → Value → Prop where
  | undefined {a b x y} (left : a.magnitude? = some x) (right : b.magnitude? = some y)
      (undefined : x = .undefined ∨ y = .undefined)
      (plain : a.isBuiltin .decimal = false ∧ b.isBuiltin .decimal = false) : Incomparable a b
  | sets {f g xs ys} (outside : xs.length < ys.length → eqAll xs ys = false)
      (without : ys.length ≤ xs.length → eqAll ys xs = false) : Incomparable (.set f xs) (.set g ys)
  | items {k front front' x y xs ys} (alike : List.Forall₂ (fun a b => same a b = true) front front')
      (differ : same x y = false) (first : Incomparable x y) :
      Incomparable (.sequence k (front ++ x :: xs)) (.sequence k (front' ++ y :: ys))

/-! ### The two orders -/

theorem numberLt_eq (a b : Value) (x y : Magnitude) : numberLt a b x y =
    if (a.isBuiltin .decimal || b.isBuiltin .decimal) && (x == .undefined || y == .undefined) then
      .error .undefinedDecimal
    else .ok (x.below y) := by
  unfold numberLt
  cases a <;> first | rfl | (cases b <;> rfl)

theorem scalarLt_eq (a b : Value) : scalarLt a b = match a.pairing b with
    | .numbers x y => .ok (x.below y)
    | .days m n => .ok (m < n)
    | .instants x y => .ok (x < y)
    | .bytes xs ys => .ok (bytesLt xs ys)
    | .sets xs ys => .ok (xs.length < ys.length && eqAll xs ys)
    | .texts s t => .ok (s < t)
    | .undefinedDecimal => .error .undefinedDecimal
    | .apart => .error (unorderedFault a b) := by
  rcases ha : a.magnitude? with _ | x <;> rcases hb : b.magnitude? with _ | y <;>
    simp only [scalarLt, pairing, ha, hb, numberLt_eq]
  case some.some => split <;> rfl
  all_goals
    cases a with
    | moment m =>
      cases b with
      | moment n =>
        dsimp only
        cases m.comparable? n <;> rfl
      | _ => rfl
    | date | bytes | set => cases b <;> rfl
    | text s => cases b.asText? <;> rfl
    | member e n p => cases (member e n p).asText? <;> cases b.asText? <;> rfl
    | _ => rfl

/-- How the two answers about a pair go together, whether the one value is below the other and whether it is at least
the other: they are opposite, unless there is a reason why both are no, or neither can be given. -/
inductive Answers (apart : Prop) : Except Fault Bool → Except Fault Bool → Prop where
  | opposite (below : Bool) : Answers apart (.ok below) (.ok !below)
  | neither (reason : apart) : Answers apart (.ok false) (.ok false)
  | failing (f g : Fault) : Answers apart (.error f) (.error g)

theorem Answers.imp {p q : Prop} {lt ge : Except Fault Bool} (h : Answers p lt ge) (weaken : p → q) :
    Answers q lt ge := by
  cases h with
  | opposite below => exact .opposite below
  | neither reason => exact .neither (weaken reason)
  | failing f g => exact .failing f g

theorem bytesLe_eq : ∀ xs ys : List UInt8, (bytesLt ys xs || xs == ys) = !bytesLt xs ys
  | [], [] => rfl
  | [], _ :: _ => rfl
  | _ :: _, [] => rfl
  | x :: xs, y :: ys => by
    have rest := bytesLe_eq xs ys
    rcases Nat.lt_trichotomy x.toNat y.toNat with less | equal | more
    · have : ¬y < x := by simp [UInt8.lt_iff_toNat_lt]; omega
      have differ : x ≠ y := by rintro rfl; omega
      simp [bytesLt, UInt8.lt_iff_toNat_lt.mpr less, this, differ]
    · cases UInt8.toNat_inj.mp equal
      simpa [bytesLt, UInt8.lt_iff_toNat_lt] using rest
    · have : ¬x < y := by simp [UInt8.lt_iff_toNat_lt]; omega
      simp [bytesLt, UInt8.lt_iff_toNat_lt.mpr more, this]

theorem textLe_eq (s t : String) : (decide (t < s) || s == t) = !decide (s < t) := by
  rcases Classical.em (s < t) with less | less
  · have : ¬t < s := String.lt_asymm less
    have differ : s ≠ t := by rintro rfl; exact String.lt_irrefl _ less
    simp [less, this, differ]
  · simp only [less, decide_false, Bool.not_false, Bool.or_eq_true, decide_eq_true_eq, beq_iff_eq]
    by_contra h
    obtain ⟨h1, h2⟩ := not_or.mp h
    exact h2 (String.le_antisymm (String.not_lt.mp h1) (String.not_lt.mp less))

section Scalars
variable {a b : Value}

theorem pairing_numbers {x y : Magnitude} (h : a.pairing b = .numbers x y) :
    a.magnitude? = some x ∧ b.magnitude? = some y ∧
      (x = .undefined ∨ y = .undefined → a.isBuiltin .decimal = false ∧ b.isBuiltin .decimal = false) := by
  unfold pairing at h
  split at h
  · next ha hb =>
    split at h
    · cases h
    · next plain =>
      cases h
      refine ⟨ha, hb, fun undefined => ?_⟩
      simp_all
  · split at h <;> first | cases h | (split at h <;> cases h)

theorem pairing_sets {xs ys : List Value} (h : a.pairing b = .sets xs ys) : ∃ f g, a = .set f xs ∧ b = .set g ys := by
  unfold pairing at h
  split at h
  · split at h <;> cases h
  · split at h
    · cases h
    · split at h <;> cases h
    · cases h
    · cases h
      exact ⟨_, _, rfl, rfl⟩
    · split at h <;> cases h

theorem pairing_undefined {x y : Magnitude} (left : a.magnitude? = some x) (right : b.magnitude? = some y)
    (plain : a.isBuiltin .decimal = false ∧ b.isBuiltin .decimal = false) : a.pairing b = .numbers x y := by
  simp [pairing, left, right, plain]

theorem scalar_answers (a b : Value) : Answers (Incomparable a b) (scalarLt a b) (scalarGe a b) := by
  rw [scalarLt_eq, scalarGe]
  cases paired : a.pairing b with
  | numbers x y =>
    obtain ⟨left, right, plain⟩ := pairing_numbers paired
    by_cases undefined : x = .undefined ∨ y = .undefined
    · dsimp only
      rw [(Magnitude.unordered undefined).1, (Magnitude.unordered undefined).2]
      exact .neither (.undefined left right undefined (plain undefined))
    · obtain ⟨hx, hy⟩ := not_or.mp undefined
      dsimp only
      rw [Magnitude.atLeast_eq hx hy]
      exact .opposite _
  | days m n =>
    have : decide (n ≤ m) = !decide (m < n) := by simp [← decide_not]
    dsimp only
    rw [this]
    exact .opposite _
  | instants x y =>
    have : decide (y ≤ x) = !decide (x < y) := by simp [← decide_not]
    dsimp only
    rw [this]
    exact .opposite _
  | bytes xs ys =>
    dsimp only
    rw [bytesLe_eq]
    exact .opposite _
  | sets xs ys =>
    obtain ⟨f, g, rfl, rfl⟩ := pairing_sets paired
    dsimp only
    -- A set with fewer members can only be contained in the other, one with at least as many can only contain it.
    rcases Nat.lt_or_ge xs.length ys.length with fewer | enough
    · have without : ¬ys.length ≤ xs.length := by omega
      cases outside : eqAll xs ys with
      | true => simpa [fewer, without] using Answers.opposite true
      | false => simpa [without] using Answers.neither (.sets (fun _ => outside) fun h => absurd h without)
    · have outside : ¬xs.length < ys.length := by omega
      cases without : eqAll ys xs with
      | true => simpa [enough, outside] using Answers.opposite false
      | false => simpa [outside] using Answers.neither (.sets (fun h => absurd h outside) fun _ => without)
  | texts s t =>
    dsimp only
    rw [textLe_eq]
    exact .opposite _
  | undefinedDecimal => exact .failing _ _
  | apart => exact .failing _ _

end Scalars

/-! ### Sequences -/

theorem Incomparable.cons {k : SequenceKind} {x y : Value} {xs ys : List Value} (alike : same x y = true)
    (h : Incomparable (.sequence k xs) (.sequence k ys)) :
    Incomparable (.sequence k (x :: xs)) (.sequence k (y :: ys)) := by
  generalize hl : Value.sequence k xs = l at h
  generalize hr : Value.sequence k ys = r at h
  cases h with
  | undefined left => cases hl; cases left
  | sets => cases hl
  | items front differ first =>
    cases hl
    cases hr
    exact .items (.cons alike front) differ first

mutual

/-- One value is below another or at least the other, and not both, unless they are incomparable. -/
theorem answers : ∀ a b : Value, Answers (Incomparable a b) (lt a b) (ge a b)
  | .sequence k xs, b => by
    -- A value of another kind has no order with a sequence, so only another sequence needs a look at the items.
    rw [lt.eq_def, ge.eq_def]
    cases b with
    | sequence k' ys =>
      dsimp only
      split
      · next same =>
        cases same
        exact (answersItems xs ys).imp (· k)
      · exact .failing _ _
    | _ => exact .failing _ _
  | .absent, b | .bool _, b | .int _, b | .float _, b | .complex _, b | .decimal _, b | .fraction _ _, b | .date _, b
  | .moment _, b | .text _, b | .bytes _ _, b | .range _ _ _, b | .pattern _ _, b | .bag _ _, b | .set _ _, b
  | .mapping _ _, b | .member _ _ _, b | .function _, b | .cls _ _, b | .object _ _ _ _, b | .record _ _, b => by
    rw [lt, ge]
    · exact scalar_answers _ b
    · nofun
    · nofun

theorem answersItems : ∀ xs ys : List Value,
    Answers (∀ k, Incomparable (.sequence k xs) (.sequence k ys)) (ltItems xs ys) (geItems xs ys)
  | _, [] => by
    rw [ltItems, geItems]
    exact .opposite false
  | [], _ :: _ => by
    rw [ltItems, geItems]
    exact .opposite true
  | x :: xs, y :: ys => by
    rw [ltItems, geItems]
    split
    · next alike => exact (answersItems xs ys).imp fun apart k => (apart k).cons alike
    · next differ =>
      exact (answers x y).imp fun apart k => .items .nil (Bool.eq_false_iff.mpr differ) apart

end

/-- The first items in which two sequences differ decide. -/
theorem ltItems_append {front front' xs ys : List Value} {x y : Value}
    (alike : List.Forall₂ (fun a b => same a b = true) front front') (differ : same x y = false) :
    ltItems (front ++ x :: xs) (front' ++ y :: ys) = lt x y := by
  induction alike with
  | nil => rw [List.nil_append, List.nil_append, ltItems, if_neg (by simp [differ])]
  | cons here _ ih => rw [List.cons_append, List.cons_append, ltItems, if_pos here, ih]

theorem geItems_append {front front' xs ys : List Value} {x y : Value}
    (alike : List.Forall₂ (fun a b => same a b = true) front front') (differ : same x y = false) :
    geItems (front ++ x :: xs) (front' ++ y :: ys) = ge x y := by
  induction alike with
  | nil => rw [List.nil_append, List.nil_append, geItems, if_neg (by simp [differ])]
  | cons here _ ih => rw [List.cons_append, List.cons_append, geItems, if_pos here, ih]

/-- Of incomparable values neither question is answered with yes. -/
theorem Incomparable.neither {a b : Value} (h : Incomparable a b) : a.lt b = .ok false ∧ a.ge b = .ok false := by
  induction h with
  | @undefined a b x y left right undefined plain =>
    have scalar : ∀ k xs, a = .sequence k xs → False := by
      rintro k xs rfl
      cases left
    rw [lt, ge, scalarLt_eq, scalarGe, pairing_undefined left right plain]
    · dsimp only
      rw [(Magnitude.unordered undefined).1, (Magnitude.unordered undefined).2]
      exact ⟨rfl, rfl⟩
    · exact scalar
    · exact scalar
  | @sets f g xs ys outside without =>
    have paired : (Value.set f xs).pairing (.set g ys) = .sets xs ys := rfl
    rw [lt, ge, scalarLt_eq, scalarGe, paired]
    · simp only [Except.ok.injEq, Bool.and_eq_false_imp, decide_eq_true_eq]
      exact ⟨outside, without⟩
    · nofun
    · nofun
  | items alike differ first ih =>
    rw [lt, ge, if_pos rfl, if_pos rfl, ltItems_append alike differ, geItems_append alike differ]
    exact ih

/-- What is not below a value is at least the value or incomparable with it. -/
theorem lt_eq_false {a b : Value} : a.lt b = .ok false ↔ a.ge b = .ok true ∨ Incomparable a b := by
  constructor
  · intro least
    have together := answers a b
    rw [least] at together
    generalize a.ge b = r at together
    cases together with
    | opposite => exact .inl rfl
    | neither apart => exact .inr apart
  · rintro (least | apart)
    · have together := answers a b
      rw [least] at together
      generalize a.lt b = r at together
      generalize h : (Except.ok true : Except Fault Bool) = l at together
      cases together with
      | opposite below => cases below <;> simp_all
      | neither => cases h
      | failing => cases h
    · exact apart.neither.1

mutual

/-- Values of which any two that can be compared are in order: they are no sets and no undefined numbers, nor hold any. -/
def isLinear : Value → Bool
  | .sequence _ xs => areLinear xs
  | .set _ _ => false
  | v => v.magnitude? != some .undefined

def areLinear : List Value → Bool
  | [] => true
  | x :: xs => isLinear x && areLinear xs

end

theorem areLinear_append {xs ys : List Value} : areLinear (xs ++ ys) = (areLinear xs && areLinear ys) := by
  induction xs with
  | nil => rfl
  | cons x xs ih => rw [List.cons_append, areLinear, areLinear, ih, Bool.and_assoc]

theorem isLinear_of_magnitude {v : Value} {x : Magnitude} (number : v.magnitude? = some x) :
    v.isLinear = (x != .undefined) := by
  rw [isLinear, number]
  · cases x <;> rfl
  · rintro k xs rfl
    cases number
  · rintro f xs rfl
    cases number

theorem Incomparable.not_linear {a b : Value} (h : Incomparable a b) : ¬(a.isLinear = true ∧ b.isLinear = true) := by
  induction h with
  | undefined left right undefined =>
    rw [isLinear_of_magnitude left, isLinear_of_magnitude right]
    rcases undefined with rfl | rfl <;> simp
  | sets => simp [isLinear]
  | items alike differ first ih =>
    simp only [isLinear, areLinear_append, areLinear, Bool.and_eq_true]
    rintro ⟨⟨-, left, -⟩, -, right, -⟩
    exact ih ⟨left, right⟩

theorem magnitude_of_isUndefined {v : Value} (h : v.isUndefined = true) : v.magnitude? = some .undefined := by
  cases v with
  | float x => cases x <;> first | rfl | cases h
  | _ => cases h

theorem undefined_cases {v : Value} (undefined : v.magnitude? = some .undefined) :
    (∃ n, v = .float (.nan n)) ∨ ∃ n s, v = .decimal (.nan n s) := by
  cases v with
  | float x =>
    cases x with
    | nan n => exact .inl ⟨n, rfl⟩
    | infinity negative => cases negative <;> cases undefined
    | finite negative m e => cases e <;> cases undefined
  | decimal d =>
    cases d with
    | nan n s => exact .inr ⟨n, s, rfl⟩
    | infinity negative => cases negative <;> cases undefined
    | finite negative c e => cases e <;> cases undefined
  | member e n payload => cases payload <;> simp [magnitude?, Magnitude.ofInt] at undefined
  | _ => cases undefined

theorem pairing_of_undefined {a b : Value} (h : a.magnitude? = some .undefined ∨ b.magnitude? = some .undefined) :
    a.pairing b = .apart ∨ a.pairing b = .undefinedDecimal ∨
      ∃ x y, a.pairing b = .numbers x y ∧ (x = .undefined ∨ y = .undefined) := by
  rcases ha : a.magnitude? with _ | x <;> rcases hb : b.magnitude? with _ | y
  · simp [ha, hb] at h
  · left
    have undefined := h.resolve_left (by simp [ha])
    obtain ⟨n, rfl⟩ | ⟨n, s, rfl⟩ := undefined_cases undefined <;> simp [pairing, undefined, ha, asText?]
  · left
    have undefined := h.resolve_right (by simp [hb])
    obtain ⟨n, rfl⟩ | ⟨n, s, rfl⟩ := undefined_cases undefined <;> simp [pairing, undefined, hb, asText?]
  · right
    simp only [pairing, ha, hb]
    split
    · exact .inl rfl
    · exact .inr ⟨x, y, rfl, by simpa [ha, hb] using h⟩

/-- An undefined number is at least nothing, and nothing is at least it. -/
theorem ge_of_undefined {a b : Value} (h : a.magnitude? = some .undefined ∨ b.magnitude? = some .undefined) :
    a.ge b ≠ .ok true := by
  by_cases sequence : ∃ k xs, a = .sequence k xs
  · obtain ⟨k, xs, rfl⟩ := sequence
    have undefined := h.resolve_left nofun
    obtain ⟨n, rfl⟩ | ⟨n, s, rfl⟩ := undefined_cases undefined <;> simp [ge]
  · rw [ge, scalarGe]
    · obtain paired | paired | ⟨x, y, paired, undefined⟩ := pairing_of_undefined h
      · simp [paired]
      · simp [paired]
      · simp [paired, (Magnitude.unordered undefined).2]
    · exact fun k xs same => sequence ⟨k, xs, same⟩

/-- The two questions fail together. -/
theorem lt_fails_of_ge {a b : Value} {f : Fault} (failed : a.ge b = .error f) : ∃ g, a.lt b = .error g := by
  have together := answers a b
  rw [failed] at together
  generalize a.lt b = r at together
  cases together with
  | failing g => exact ⟨g, rfl⟩

end Value

/-! ### Being within a bound -/

namespace BoundSide
variable {side : BoundSide} {v p : Value}

/-- Whether a value is at least a lower bound, or at most an upper one. -/
def within (side : BoundSide) (v p : Value) : Except Fault Bool :=
  match side with
  | .lower => v.ge p
  | .upper => v.le p

/-- A value and a bound, neither of which is beyond the other nor at it. -/
def Apart (side : BoundSide) (v p : Value) : Prop :=
  match side with
  | .lower => v.Incomparable p
  | .upper => p.Incomparable v

theorem beyond_eq_false : side.beyond v p = .ok false ↔ side.within v p = .ok true ∨ side.Apart v p := by
  cases side with
  | lower => exact Value.lt_eq_false
  | upper =>
    simp only [beyond, within, Apart, Value.gt, Value.le, mapError_eq_ok]
    exact Value.lt_eq_false

theorem within_of_apart (apart : side.Apart v p) : side.within v p = .ok false := by
  cases side with
  | lower => exact apart.neither.2
  | upper => exact mapError_eq_ok.mpr apart.neither.2

/-- Where it cannot be said whether a value is within a bound, it cannot be said whether it is beyond it. -/
theorem beyond_fails {f : Fault} (failed : side.within v p = .error f) : ∃ g, side.beyond v p = .error g := by
  cases side with
  | lower => exact Value.lt_fails_of_ge failed
  | upper =>
    rcases hge : p.ge v with g | r
    · obtain ⟨g', hg'⟩ := Value.lt_fails_of_ge hge
      exact ⟨g'.flip, by rw [beyond, Value.gt, hg']; rfl⟩
    · simp [within, Value.le, hge, Except.mapError] at failed

theorem within_of_undefined (undefined : v.magnitude? = some .undefined) : side.within v p ≠ .ok true := by
  cases side with
  | lower => exact Value.ge_of_undefined (.inl undefined)
  | upper =>
    rw [within, Value.le, ne_eq, mapError_eq_ok]
    exact Value.ge_of_undefined (.inr undefined)

theorem not_apart_of_linear (hv : v.isLinear = true) (hp : p.isLinear = true) : ¬side.Apart v p := by
  cases side with
  | lower => exact fun apart => apart.not_linear ⟨hv, hp⟩
  | upper => exact fun apart => apart.not_linear ⟨hp, hv⟩

/-- An undefined decimal is not even incomparable with a bound, since the question fails. -/
theorem not_apart_of_undefined (undefined : v.magnitude? = some .undefined) (decimal : v.isUndefined = false) :
    ¬side.Apart v p := by
  obtain ⟨n, rfl⟩ | ⟨n, s, rfl⟩ := Value.undefined_cases undefined
  · cases decimal
  · cases side with
    | lower =>
      intro apart
      cases apart with
      | undefined _ _ _ plain => cases plain.1
    | upper =>
      intro apart
      cases apart with
      | undefined _ _ _ plain => cases plain.2

theorem within_absent : ∃ f, side.within .absent p = .error f := by
  cases side with
  | lower => exact ⟨_, rfl⟩
  | upper =>
    by_cases sequence : ∃ k xs, p = .sequence k xs
    · obtain ⟨k, xs, rfl⟩ := sequence
      exact ⟨_, rfl⟩
    · have paired : p.pairing .absent = .apart := by
        cases hp : p.magnitude? <;> simp [Value.pairing, Value.magnitude?, Value.asText?]
      rw [within, Value.le, Value.ge, Value.scalarGe, paired]
      · exact ⟨_, rfl⟩
      · exact fun k xs same => sequence ⟨k, xs, same⟩

end BoundSide

/-! ### Levels with a bound -/

/-- The levels for a bound on values of any type, each with the node that it is compiled to: one where a value must be
present, and one where it may be absent. -/
inductive BoundFamily.Level : BoundFamily → Rule → BoundRule → Shape → Node → Prop where
  | value {rule bound} : Level .value rule bound (.scalar .absent [rule]) (.scalar [bound] .absent)
  | option {rule bound inner} (any : inner = none ∨ inner = some (.scalar .absent [])) :
      Level .option rule bound (.wrapper .optional inner none [rule])
        (.wrapper .optional [bound] (some (.scalar [] .absent)) none)

section Levels
variable {w : Workshop} {site : Site} {family : BoundFamily} {side : BoundSide} {raw p v : Value} {shape : Shape}
variable {node : Node} {h : Host}

theorem compile_level (level : family.Level ⟨family.name side, raw⟩ ⟨family.function side, p⟩ shape node)
    (found : w.table.find? (family.name side) = some (family.function side))
    (resolved : w.resolve (family.function side) raw = .ok p)
    (accepted : ParameterCheck.checkOrdinal p shape = .ok none) : w.compile site shape = .ok node := by
  have suits : ParameterCheck.run w.host (if family = .length then .length else .ordinal) p shape = .ok none := by
    cases level <;> exact congrArg (Except.map _ ∘ Except.map _) accepted
  have bound : w.bindRule shape site ⟨family.name side, raw⟩ = .ok ⟨family.function side, p⟩ :=
    bindRule_family found (by cases level <;> rfl) resolved suits
  have ruled : shape.rules = [⟨family.name side, raw⟩] := by cases level <;> rfl
  have rules : w.bindRules shape site [] = .ok [⟨family.function side, p⟩] := by
    rw [Workshop.bindRules, ruled, List.mapM_cons, bound]
    rfl
  cases level with
  | value =>
    rw [Shape.scalar] at rules ⊢
    rw [Workshop.compile, rules]
    rfl
  | option any =>
    rw [Shape.wrapper, Wrapper.kind] at rules ⊢
    rw [Workshop.compile, rules]
    obtain rfl | rfl := any <;> rfl

theorem walk_level {rule : Rule} {bound : BoundRule} (level : family.Level rule bound shape node)
    (present : ¬v.isAbsent = true) : walk h node v = .ok (bound.violations h v) := by
  cases level with
  | value =>
    rw [walk_scalar present]
    simp [Value.fits, Except.map, BoundRule.violationsAll]
  | option any =>
    rw [walk_optional present, Hint.walk_untyped present, andThen_nil]
    simp [BoundRule.violationsAll]

/-- A value that is present passes when it is defined and not beyond the bound; no other passes. -/
theorem level_passes (level : family.Level ⟨family.name side, raw⟩ ⟨family.function side, p⟩ shape node)
    (present : family = .option → v.isAbsent = false) :
    node.Passes h v ↔ v.isUndefined = false ∧ side.beyond v p = .ok false := by
  rw [Node.passes_iff]
  by_cases absent : v.isAbsent = true
  · have missing : walk h node v = .ok [.required] := by
      rw [walk_of_absent absent]
      cases level with
      | value => rfl
      | option => simp [present rfl] at absent
    have unknown : side.beyond v p ≠ .ok false := by
      cases v <;> cases absent
      obtain ⟨f, hf⟩ : ∃ f, side.within .absent p = .error f := BoundSide.within_absent
      obtain ⟨g, hg⟩ := BoundSide.beyond_fails hf
      simp [hg]
    simp [missing, unknown]
  · have run : (family.check side).run h v p = Check.compare side v p := by
      rw [BoundFamily.run_check]
      cases level with
      | value => rfl
      | option => exact if_neg absent
    have check : (family.function side).check = .builtin (family.check side) := rfl
    rw [walk_level level absent, Except.ok.injEq, BoundRule.violations_builtin check, run, Check.compare_eq_none]

/-- The values that pass are those within the bound, and of those that are defined the incomparable ones. -/
theorem level_passes_iff (level : family.Level ⟨family.name side, raw⟩ ⟨family.function side, p⟩ shape node)
    (present : family = .option → v.isAbsent = false) :
    node.Passes h v ↔ side.within v p = .ok true ∨ v.isUndefined = false ∧ side.Apart v p := by
  have defined : side.within v p = .ok true → v.isUndefined = false := fun within => by
    by_contra nan
    exact BoundSide.within_of_undefined (Value.magnitude_of_isUndefined (eq_true_of_ne_false nan)) within
  rw [level_passes level present, BoundSide.beyond_eq_false, and_or_left]
  exact or_congr_left (and_iff_right_of_imp defined)

theorem level_refuses (level : family.Level ⟨family.name side, raw⟩ ⟨family.function side, p⟩ shape node)
    (present : family = .option → v.isAbsent = false)
    (unknown : (∃ f, side.within v p = .error f) ∨ v.magnitude? = some .undefined) : ¬node.Passes h v := by
  intro passed
  rcases unknown with ⟨f, failed⟩ | nan
  · obtain ⟨g, hg⟩ := BoundSide.beyond_fails failed
    obtain ⟨-, beyond⟩ := (level_passes level present).mp passed
    cases hg.symm.trans beyond
  · obtain within | ⟨defined, apart⟩ := (level_passes_iff level present).mp passed
    · exact BoundSide.within_of_undefined nan within
    · exact BoundSide.not_apart_of_undefined nan defined apart

/-- A rule with a check of the engine finds nothing, or one violation by its name. -/
theorem BoundRule.violations_builtin_cases {f : ConstraintFunction} {c : BuiltinCheck}
    (check : f.check = .builtin c) : BoundRule.violations h ⟨f, p⟩ v = [] ∨
      ∃ d, BoundRule.violations h ⟨f, p⟩ v = [Violation.report f.name d []] := by
  simp only [BoundRule.violations, ConstraintFunction.evaluate, check]
  rcases c.run h v p with fault | _ | d
  · exact .inr ⟨_, rfl⟩
  · exact .inl rfl
  · exact .inr ⟨d, rfl⟩

theorem level_reports (level : family.Level ⟨family.name side, raw⟩ ⟨family.function side, p⟩ shape node)
    (present : v.isAbsent = false) (fails : ¬node.Passes h v) :
    ∃ d, node.validate h v = .ok (Report.of v [Violation.report (family.name side) d []]) := by
  have walked : walk h node v = .ok (BoundRule.violations h ⟨family.function side, p⟩ v) :=
    walk_level level (by simp [present])
  have check : (family.function side).check = .builtin (family.check side) := rfl
  rw [Node.passes_iff, walked] at fails
  rw [Node.validate_eq_walk, walked]
  obtain nothing | ⟨d, one⟩ := BoundRule.violations_builtin_cases (h := h) (p := p) (v := v) check
  · exact absurd (congrArg Except.ok nothing) fails
  · exact ⟨d, by rw [one]; rfl⟩

end Levels

/-- A bound that is accepted lets a value pass when the value is within it, and also when the value is defined and the
two are incomparable, although it is not within the bound then; it lets no other pass. So among values in order those
pass that are within the bound. A value that cannot be compared with the bound does not pass, nor does an undefined
number. A value that is present and does not pass has one violation, by the name of the bound. -/
theorem passes_bound {b : SchemaBuilder} {h : Host} {t : FunctionTable} {spelling : ShapeSpelling} {shape : Shape}
    {node : Node} {family : BoundFamily} {side : BoundSide} {raw p : Value}
    (found : t.find? (family.name side) = some (family.function side)) (shaped : Shape.ofSpelling spelling = .ok shape)
    (level : family.Level ⟨family.name side, raw⟩ ⟨family.function side, p⟩ shape node)
    (resolved : (b.workshop h t).resolve (family.function side) raw = .ok p)
    (accepted : ParameterCheck.checkOrdinal p shape = .ok none) :
    b.compileShape h t spelling = .ok node ∧
    ∀ v, (family = .option → v.isAbsent = false) →
      (node.Passes h v ↔ side.within v p = .ok true ∨ v.isUndefined = false ∧ side.Apart v p) ∧
      (side.Apart v p → side.within v p = .ok false) ∧
      (v.isLinear = true → p.isLinear = true → (node.Passes h v ↔ side.within v p = .ok true)) ∧
      ((∃ f, side.within v p = .error f) ∨ v.magnitude? = some .undefined → ¬node.Passes h v) ∧
      (v.isAbsent = false → ¬node.Passes h v →
        ∃ d, node.validate h v = .ok (Report.of v [Violation.report (family.name side) d []])) := by
  constructor
  · rw [SchemaBuilder.compileShape, shaped]
    exact compile_level level found resolved accepted
  intro v present
  have exactly : node.Passes h v ↔ side.within v p = .ok true ∨ v.isUndefined = false ∧ side.Apart v p :=
    level_passes_iff level present
  refine ⟨exactly, BoundSide.within_of_apart, fun hv hp => ?_, level_refuses level present, level_reports level⟩
  rw [exactly, or_iff_left]
  exact fun apart => BoundSide.not_apart_of_linear hv hp apart.2

/-- A set with one in it passes the lower bound that is the set with two in it, which it does not contain. -/
theorem passes_bound_of_sets :
    ∃ node, SchemaBuilder.compileShape { name := .text "Choice" } .bare .default
        (.shape (.scalar .absent [⟨"min", .set false [.int 2]⟩])) = .ok node ∧
      node.Passes .bare (.set false [.int 1]) ∧
      BoundSide.within .lower (.set false [.int 1]) (.set false [.int 2]) = .ok false := by
  have shaped : Shape.ofSpelling (.shape (.scalar .absent [⟨"min", .set false [.int 2]⟩])) = .ok _ := rfl
  have accepted : ParameterCheck.checkOrdinal (.set false [.int 2])
      (.scalar .absent [⟨"min", .set false [.int 2]⟩]) = .ok none := rfl
  have apart : BoundSide.Apart .lower (.set false [.int 1]) (.set false [.int 2]) :=
    .sets (fun fewer => absurd fewer (by decide)) fun _ => by
      simp [Value.eqAll, Value.sameUndefined, Value.eq, Value.scalarEq, Value.magnitude?, Magnitude.same, Magnitude.ofInt]
  obtain ⟨compiled, passing⟩ := passes_bound (h := .bare) (b := { name := .text "Choice" })
    (BoundFamily.find?_default .value .lower) shaped .value rfl accepted
  obtain ⟨passes, outside, -⟩ := passing (.set false [.int 1]) fun _ => rfl
  exact ⟨_, compiled, passes.mpr (.inr ⟨rfl, apart⟩), outside apart⟩

end Conform
