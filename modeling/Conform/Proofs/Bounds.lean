import Conform.Proofs.Conforming
import Conform.Proofs.Escaping

/-!
Bounds and what satisfies them. Bounds come in three families: on a value, on a value that may be absent, and on a
length. Of each family some are lower bounds and some upper ones, and a level may have any number of both. When the
bounds are whole numbers, checking a declaration for contradictions pair by pair is as good as looking for a value
that satisfies all of them at once: a field is accepted exactly when there is one, and otherwise refused because of a
conflict (`accepted_iff_satisfiable`).
-/

namespace Conform

/-- Whole numbers that are no truth values. -/
def Value.Whole (v : Value) (n : Int) : Prop := v.asInt? = some n ∧ v.isBuiltin .bool = false

/-- The families of bounds: of a value, of one that may be absent, and of a length. -/
inductive BoundFamily where
  | value | option | length
  deriving Repr, DecidableEq

namespace BoundSide

def name : BoundSide → String
  | .lower => "lower" | .upper => "upper"

def beyond (side : BoundSide) (v p : Value) : Except Fault Bool :=
  match side with
  | .lower => v.lt p
  | .upper => v.gt p

end BoundSide

/-- Whether a value is the undefined floating number, which a bound refuses to compare. -/
def Value.isUndefined : Value → Bool
  | .float x => x.isNaN
  | _ => false

namespace Check
variable {side : BoundSide} {v p : Value}

/-- A bound lets a value pass that is defined and has an order with the bound, which it is not beyond. -/
theorem compare_eq_none : compare side v p = .ok none ↔ v.isUndefined = false ∧ side.beyond v p = .ok false := by
  unfold compare
  change (if v.isUndefined = true then _ else _) = _ ↔ _
  cases v.isUndefined with
  | true => simp
  | false =>
    have refused (f : Fault) (d : Option Details) (hd : d ≠ none) :
        (if f.isTypeFault = true then Except.ok d else Except.error f) ≠ .ok none := by
      split <;> simp [hd]
    cases side with
    | lower => rcases hv : v.lt p with f | _ | _ <;> simp [BoundSide.beyond, hv, refused]
    | upper => rcases hv : v.gt p with f | _ | _ <;> simp [BoundSide.beyond, hv, refused]

theorem length_eq_none :
    length side v p = .ok none ↔ ∃ n : Nat, v.length? = some n ∧ side.beyond (.int n) p = .ok false := by
  unfold length
  cases v.length? with
  | none => simp
  | some n =>
    cases side with
    | lower => rcases hn : (Value.int n).lt p with f | _ | _ <;> simp [BoundSide.beyond, hn, Except.map]
    | upper => rcases hn : (Value.int n).gt p with f | _ | _ <;> simp [BoundSide.beyond, hn, Except.map]

end Check

namespace BoundFamily

def name : BoundFamily → BoundSide → String
  | .value, .lower => "min" | .value, .upper => "max"
  | .option, .lower => "option_min" | .option, .upper => "option_max"
  | .length, .lower => "min_len" | .length, .upper => "max_len"

def check : BoundFamily → BoundSide → BuiltinCheck
  | .value, .lower => .min | .value, .upper => .max
  | .option, .lower => .optionMin | .option, .upper => .optionMax
  | .length, .lower => .minLen | .length, .upper => .maxLen

def appliesTo : BoundFamily → List FieldKind
  | .value => [.scalar]
  | .option => [.optional]
  | .length => [.scalar, .sequence, .mapping]

def description : BoundFamily → BoundSide → String
  | .value, .lower => "value >= bound" | .value, .upper => "value <= bound"
  | .option, .lower => "absent, or value >= bound" | .option, .upper => "absent, or value <= bound"
  | .length, .lower => "len(value) >= bound" | .length, .upper => "len(value) <= bound"

/-- The function of a family and a side. -/
def function (family : BoundFamily) (side : BoundSide) : ConstraintFunction where
  name := family.name side
  check := .builtin (family.check side)
  appliesTo := family.appliesTo
  checkParam := some (if family = .length then .length else .ordinal)
  bound := some side.name
  group := some (if family = .length then "length" else "value")
  description := family.description side

theorem find?_default (family : BoundFamily) (side : BoundSide) :
    FunctionTable.default.find? (family.name side) = some (family.function side) := by
  cases family <;> cases side <;> rfl

theorem name_inj {family : BoundFamily} {side side' : BoundSide} :
    family.name side = family.name side' ↔ side = side' := by
  cases family <;> cases side <;> cases side' <;> decide

/-- The shapes that the bounds of a family are declared on: a whole number, one that may be absent, or a sequence of
scalars. -/
inductive Declares : BoundFamily → List Rule → Shape → Prop where
  | value {rules} : Declares .value rules (.scalar (.cls (.builtin .int) []) rules)
  | option {rules} : Declares .option rules (.wrapper .optional (some (.scalar (.cls (.builtin .int) []) [])) none rules)
  | length {inner rules} (scalars : inner = none ∨ inner = some (.scalar .absent [])) :
      Declares .length rules (.wrapper .sequence inner none rules)

/-- The node that such a shape is compiled to. -/
def node : BoundFamily → List BoundRule → Node
  | .value, rules => .scalar rules (.cls (.builtin .int) [])
  | .option, rules => .wrapper .optional rules (some (.scalar [] (.cls (.builtin .int) []))) none
  | .length, rules => .wrapper .sequence rules (some (.scalar [] .absent)) none

/-- The values that the bounds of a family are about, with what is bounded: a whole number, or the length of a list in
which nothing is absent. -/
inductive Sample : BoundFamily → Value → Int → Prop where
  | value {n} : Sample .value (.int n) n
  | option {n} : Sample .option (.int n) n
  | length {items} (present : ∀ x ∈ items, ¬x.isAbsent = true) : Sample .length (.list items) items.length

end BoundFamily

/-- A bound by a whole number. -/
structure IntBound where
  side : BoundSide
  param : Value
  limit : Int
  whole : param.Whole limit

namespace IntBound

def rule (family : BoundFamily) (b : IntBound) : Rule := ⟨family.name b.side, b.param⟩

def bound (family : BoundFamily) (b : IntBound) : BoundRule := ⟨family.function b.side, b.param⟩

/-- Whether a number is within a bound. -/
def Admits (b : IntBound) (n : Int) : Prop :=
  match b.side with
  | .lower => b.limit ≤ n
  | .upper => n ≤ b.limit

/-- Two bounds agree unless the one is a lower bound above the other. -/
def Agrees (a b : IntBound) : Prop :=
  (a.side = .lower → b.side = .upper → a.limit ≤ b.limit) ∧ (a.side = .upper → b.side = .lower → b.limit ≤ a.limit)

/-! ### Satisfying bounds -/

/-- Bounds that agree pair by pair admit a number together: nothing but zero is needed if there are none, and else
one of the limits. -/
theorem exists_admitted : ∀ {bounds : List IntBound}, bounds.Pairwise Agrees →
    ∃ n, (∀ b ∈ bounds, b.Admits n) ∧ (n = 0 ∨ ∃ b ∈ bounds, n = b.limit)
  | [], _ => ⟨0, by simp, .inl rfl⟩
  | b :: rest, pairs => by
    obtain ⟨agrees, pairs⟩ := List.pairwise_cons.mp pairs
    obtain ⟨n, admitted, chosen⟩ := exists_admitted pairs
    by_cases within : b.Admits n
    · refine ⟨n, List.forall_mem_cons.mpr ⟨within, admitted⟩, chosen.imp_right ?_⟩
      rintro ⟨c, hc, rfl⟩
      exact ⟨c, List.mem_cons_of_mem _ hc, rfl⟩
    · -- The limit of this bound is further on its side than all others of that side, and none of the other side is in
      -- the way.
      refine ⟨b.limit, List.forall_mem_cons.mpr ⟨?_, fun c hc => ?_⟩, .inr ⟨b, List.mem_cons_self, rfl⟩⟩
      · unfold Admits
        cases b.side <;> simp
      · have admits := admitted c hc
        obtain ⟨above, under⟩ := agrees c hc
        unfold Admits at within admits ⊢
        cases hb : b.side <;> cases hc : c.side <;> simp only [hb, hc] at within admits ⊢
        · omega
        · exact above hb hc
        · exact under hb hc
        · omega

theorem agrees_of_admits {a b : IntBound} {n : Int} (ha : a.Admits n) (hb : b.Admits n) : a.Agrees b := by
  unfold Admits at ha hb
  constructor <;> intro sa sb <;> simp only [sa, sb] at ha hb <;> omega

end IntBound

/-! ### Comparing whole numbers -/

namespace Value
variable {v w : Value} {n m : Int}

theorem whole_int (n : Int) : (Value.int n).Whole n := ⟨rfl, rfl⟩

theorem Whole.cases (whole : v.Whole n) :
    v = .int n ∨ ∃ e name, v = .member e name (.int n) ∧ e.base = .int := by
  obtain ⟨number, other⟩ := whole
  cases v with
  | bool b => simp [isBuiltin] at other
  | int k => exact .inl (by simpa [asInt?] using number)
  | member e name payload => cases payload <;> simp_all [asInt?]
  | _ => simp [asInt?] at number

theorem Whole.magnitude? (whole : v.Whole n) : v.magnitude? = some (.ofInt n) := by
  obtain rfl | ⟨e, name, rfl, base⟩ := whole.cases
  · rfl
  · simp [Value.magnitude?, base]

theorem Whole.isRealNumber (whole : v.Whole n) : v.isRealNumber = true := by
  obtain rfl | ⟨e, name, rfl, base⟩ := whole.cases
  · rfl
  · simp [Value.isRealNumber, base]

theorem Whole.present (whole : v.Whole n) : v.isAbsent = false := by
  obtain rfl | ⟨e, name, rfl, base⟩ := whole.cases <;> rfl

theorem Whole.lt (hv : v.Whole n) (hw : w.Whole m) : v.lt w = .ok (decide (n < m)) := by
  have scalar : v.lt w = scalarLt v w := by
    obtain rfl | ⟨e, name, rfl, base⟩ := hv.cases <;> rw [Value.lt] <;> simp
  have numbers : numberLt v w (.ofInt n) (.ofInt m) = .ok (decide (n < m)) := by
    obtain rfl | ⟨e, name, rfl, base⟩ := hv.cases <;> obtain rfl | ⟨e, name, rfl, base⟩ := hw.cases <;>
      simp [numberLt, Magnitude.below, Magnitude.ofInt]
  simp only [scalar, scalarLt, hv.magnitude?, hw.magnitude?, numbers]

theorem Whole.gt (hv : v.Whole n) (hw : w.Whole m) : v.gt w = .ok (decide (m < n)) := by
  rw [Value.gt, hw.lt hv]
  rfl

end Value

/-! ### Conflicts -/

/-- A check that passes when something holds, and else refuses because of a conflict. -/
inductive PassesWhen {α : Type} (p : Prop) (e : Except Fault α) (a : α) : Prop where
  | passes (holds : p) (passed : e = .ok a)
  | refuses (fails : ¬p) (refused : ∃ r, e = .error (.refused r) ∧ r.kind = .conflictingConstraint)

theorem PassesWhen.congr {α : Type} {p q : Prop} {e : Except Fault α} {a : α} (h : PassesWhen p e a) (same : q ↔ p) :
    PassesWhen q e a := (propext same).symm ▸ h

namespace IntBound
variable {family : BoundFamily} {a b : IntBound} {site : Site}

/-- Of a family the lower and the upper bounds are told apart. -/
theorem boundPair_bound : BoundRule.boundPair (a.bound family) (b.bound family) =
    match a.side, b.side with
    | .lower, .upper => some (a.bound family, b.bound family)
    | .upper, .lower => some (b.bound family, a.bound family)
    | _, _ => none := by
  obtain ⟨sa, p, n, hp⟩ := a
  obtain ⟨sb, q, m, hq⟩ := b
  cases family <;> cases sa <;> cases sb <;> rfl

/-- Two bounds that are not the same pass the check of each pair when they agree, and else contradict each other. -/
theorem checkPair_bound (distinct : b.side = a.side → b.param.same a.param = false) :
    PassesWhen (a.Agrees b) (BoundRule.checkPair (a.bound family) (b.bound family) site) () := by
  have fresh : ¬((b.bound family).name = (a.bound family).name ∧
      (b.bound family).param.same (a.bound family).param = true) := by
    rintro ⟨name, same⟩
    have := distinct (BoundFamily.name_inj.mp name)
    simp [bound, this] at same
  have shared : ¬((b.bound family).name = (a.bound family).name ∧ (b.bound family).function.exclusive = true) := by
    rintro ⟨-, exclusive⟩
    cases exclusive
  have above := a.whole.gt b.whole
  have under := b.whole.gt a.whole
  rw [BoundRule.checkPair, if_neg fresh, if_neg shared, BoundRule.checkBounds, boundPair_bound]
  unfold Agrees
  cases sa : a.side <;> cases sb : b.side
  · exact .passes ⟨nofun, nofun⟩ rfl
  · by_cases crossed : b.limit < a.limit
    · refine .refuses (fun agrees => absurd (agrees.1 rfl rfl) (by omega)) ?_
      simp only [bound, above, crossed, decide_true]
      exact ⟨_, rfl, rfl⟩
    · refine .passes ⟨fun _ _ => by omega, nofun⟩ ?_
      simp only [bound, above, crossed, decide_false]
  · by_cases crossed : a.limit < b.limit
    · refine .refuses (fun agrees => absurd (agrees.2 rfl rfl) (by omega)) ?_
      simp only [bound, under, crossed, decide_true]
      exact ⟨_, rfl, rfl⟩
    · refine .passes ⟨nofun, fun _ _ => by omega⟩ ?_
      simp only [bound, under, crossed, decide_false]
  · exact .passes ⟨nofun, nofun⟩ rfl

theorem checkAgainst_bounds : ∀ {before : List IntBound},
    (∀ a ∈ before, b.side = a.side → b.param.same a.param = false) →
      PassesWhen (∀ a ∈ before, a.Agrees b) ((b.bound family).checkAgainst site (before.map (bound family))) ()
  | [], _ => .passes (by simp) rfl
  | a :: rest, distinct => by
    obtain ⟨here, distinct⟩ := List.forall_mem_cons.mp distinct
    have pair : PassesWhen (a.Agrees b) (BoundRule.checkPair (a.bound family) (b.bound family) site) () :=
      checkPair_bound here
    have later := checkAgainst_bounds distinct
    rw [List.map_cons, BoundRule.checkAgainst, List.forall_mem_cons]
    obtain ⟨agrees, first⟩ | ⟨apart, r, first, kind⟩ := pair
    · rw [first]
      exact later.congr (and_iff_right agrees)
    · rw [first]
      exact .refuses (fun all => apart all.1) ⟨r, rfl, kind⟩

/-- Bounds of a level, no two of which are the same, pass when they agree pair by pair. -/
theorem checkConflicts_bounds : ∀ {bounds before : List IntBound},
    (∀ a ∈ before, ∀ b ∈ bounds, b.side = a.side → b.param.same a.param = false) →
      bounds.Pairwise (fun a b => b.side = a.side → b.param.same a.param = false) →
        PassesWhen ((∀ a ∈ before, ∀ b ∈ bounds, a.Agrees b) ∧ bounds.Pairwise Agrees)
          (BoundRule.checkConflicts site (before.map (bound family)) (bounds.map (bound family))) ()
  | [], _, _, _ => .passes (by simp) rfl
  | b :: rest, before, earlier, distinct => by
    obtain ⟨here, distinct⟩ := List.pairwise_cons.mp distinct
    have passed : ∀ a ∈ before ++ [b], ∀ c ∈ rest, c.side = a.side → c.param.same a.param = false := by
      intro a ha c hc
      rcases List.mem_append.mp ha with ha | ha
      · exact earlier a ha c (List.mem_cons_of_mem _ hc)
      · cases List.mem_singleton.mp ha
        exact here c hc
    have later := checkConflicts_bounds passed distinct
    rw [List.map_append, List.map_singleton] at later
    have against : PassesWhen (∀ a ∈ before, a.Agrees b)
        ((b.bound family).checkAgainst site (before.map (bound family))) () :=
      checkAgainst_bounds fun a ha => earlier a ha b List.mem_cons_self
    have all_iff : ((∀ a ∈ before, ∀ c ∈ b :: rest, a.Agrees c) ∧ (b :: rest).Pairwise Agrees) ↔
        (∀ a ∈ before, a.Agrees b) ∧ (∀ a ∈ before ++ [b], ∀ c ∈ rest, a.Agrees c) ∧ rest.Pairwise Agrees := by
      simp only [List.forall_mem_cons, List.forall_mem_append, List.pairwise_cons]
      grind
    rw [List.map_cons, BoundRule.checkConflicts, all_iff]
    -- The first bound that contradicts an earlier one ends the check, and so the rest has no say.
    obtain ⟨agrees, first⟩ | ⟨apart, r, first, kind⟩ := against
    · rw [first]
      exact later.congr (and_iff_right agrees)
    · rw [first]
      exact .refuses (fun all => apart all.1) ⟨r, rfl, kind⟩

end IntBound

/-! ### Declaring bounds -/

section Declaring
variable {w : Workshop} {site : Site} {family : BoundFamily} {s : Shape} {rules : List Rule} {bounds : List IntBound}

/-- What a workshop must be like for the bounds of a family: it knows their functions, and leaves their parameters as
they are. -/
structure Workshop.Knows (w : Workshop) (family : BoundFamily) (bounds : List IntBound) : Prop where
  found : ∀ side, w.table.find? (family.name side) = some (family.function side)
  resolves : ∀ b ∈ bounds, w.resolve (family.function b.side) b.param = .ok b.param

theorem BoundFamily.Declares.applies (declares : family.Declares rules s) : family.appliesTo.contains s.kind = true := by
  cases declares <;> rfl

theorem BoundFamily.Declares.ruled (declares : family.Declares rules s) : s.rules = rules := by
  cases declares <;> rfl

theorem BoundFamily.Declares.withRules (declares : family.Declares rules s) (more : List Rule) :
    family.Declares (rules ++ more) (s.withRules more) := by
  cases declares with
  | value => exact .value
  | option => exact .option
  | length scalars => exact .length scalars

theorem Shape.place_here {kinds : List FieldKind} (rule : Rule) (here : kinds.contains s.kind = true) :
    s.place kinds rule = some (s.withRules [rule]) := by
  obtain ⟨kind, rules, type, inner, keys, target, cases, tag⟩ := s
  unfold Shape.place
  exact if_pos here

theorem Shape.withRules_nil : s.withRules [] = s := by
  obtain ⟨kind, rules, type, inner, keys, target, cases, tag⟩ := s
  simp [Shape.withRules, Shape.kind, Shape.rules, Shape.type, Shape.inner, Shape.keys, Shape.target, Shape.cases,
    Shape.tag]

theorem Shape.withRules_cons (rule : Rule) (more : List Rule) :
    (s.withRules [rule]).withRules more = s.withRules (rule :: more) := by
  simp [Shape.withRules, Shape.kind, Shape.rules, Shape.type, Shape.inner, Shape.keys, Shape.target, Shape.cases,
    Shape.tag]

/-- Further bounds go to the level of those before them. -/
theorem placeRule_bounds (found : ∀ side, w.table.find? (family.name side) = some (family.function side)) :
    ∀ {bounds : List IntBound} {rules : List Rule} {s : Shape}, family.Declares rules s →
      (bounds.map (IntBound.rule family)).foldlM (SchemaBuilder.placeRule site w) s
        = .ok (s.withRules (bounds.map (IntBound.rule family)))
  | [], rules, s, _ => by
    rw [List.map_nil, Shape.withRules_nil]
    rfl
  | b :: rest, rules, s, declares => by
    have looked : w.lookUp (b.rule family).name site = .ok (family.function b.side) :=
      Workshop.lookUp_of_find? (found b.side)
    have here : s.place (family.function b.side).appliesTo (b.rule family) = some (s.withRules [b.rule family]) :=
      Shape.place_here _ declares.applies
    have placed : SchemaBuilder.placeRule site w s (b.rule family) = .ok (s.withRules [b.rule family]) := by
      simp only [SchemaBuilder.placeRule, looked, bind, Except.bind, here]
      rfl
    rw [List.map_cons, List.foldlM_cons, placed]
    exact (placeRule_bounds found (declares.withRules [b.rule family])).trans
      (congrArg Except.ok (Shape.withRules_cons _ _))

theorem ParameterCheck.checkOrdinal_whole {p : Value} {n : Int} (whole : p.Whole n)
    (type : s.declaredType = .cls (.builtin .int) []) : checkOrdinal p s = .ok none := by
  have real : suits p (.cls (.builtin .int) []) = .ok true := congrArg Except.ok whole.isRealNumber
  simp only [checkOrdinal, whole.present, type, real, whole.lt whole, bind, Except.bind]
  rfl

theorem ParameterCheck.checkLength_whole {p : Value} {n : Int} (whole : p.Whole n) (natural : 0 ≤ n)
    (collection : s.kind ≠ .scalar) : checkLength p s = .ok none := by
  simp [checkLength, whole.1, whole.2, natural, collection, pure, Except.pure]

theorem mapM_of_each {α β γ : Type} {f : β → Except Fault γ} {g : α → β} {k : α → γ} : ∀ {xs : List α},
    (∀ x ∈ xs, f (g x) = .ok (k x)) → (xs.map g).mapM f = .ok (xs.map k)
  | [], _ => rfl
  | x :: xs, each => by
    obtain ⟨first, each⟩ := List.forall_mem_cons.mp each
    rw [List.map_cons, List.mapM_cons, first]
    change ((xs.map g).mapM f >>= fun more => Except.ok (k x :: more)) = _
    rw [mapM_of_each each]
    rfl

/-- A bound whose parameter suits the level that it is declared on is bound with it. -/
theorem bindRule_family {side : BoundSide} {raw p : Value}
    (found : w.table.find? (family.name side) = some (family.function side))
    (applies : family.appliesTo.contains s.kind = true) (resolved : w.resolve (family.function side) raw = .ok p)
    (suits : ParameterCheck.run w.host (if family = .length then .length else .ordinal) p s = .ok none) :
    w.bindRule s site ⟨family.name side, raw⟩ = .ok ⟨family.function side, p⟩ := by
  have looked : w.lookUp (family.name side) site = .ok (family.function side) := Workshop.lookUp_of_find? found
  exact Workshop.bindRule_ok looked applies resolved fun check checked => Option.some.inj checked ▸ suits

theorem bindRule_bound {b : IntBound} (knows : w.Knows family bounds) (hb : b ∈ bounds)
    (natural : family = .length → 0 ≤ b.limit) (declares : family.Declares rules s) :
    w.bindRule s site (b.rule family) = .ok (b.bound family) := by
  have suits : ParameterCheck.run w.host (if family = .length then .length else .ordinal) b.param s = .ok none := by
    cases declares with
    | value | option => exact congrArg (Except.map _ ∘ Except.map _) (ParameterCheck.checkOrdinal_whole b.whole rfl)
    | @length inner _ scalars =>
      have collection : (Shape.wrapper .sequence inner none rules).kind ≠ .scalar := by
        simp [Shape.wrapper, Shape.kind, Wrapper.kind]
      exact congrArg (Except.map _ ∘ Except.map _)
        (ParameterCheck.checkLength_whole b.whole (natural rfl) collection)
  exact bindRule_family (knows.found b.side) declares.applies (knows.resolves b hb) suits

/-- The rules of a level of bounds are these bounds, unless two of them contradict each other. -/
theorem bindRules_bounds (knows : w.Knows family bounds) (natural : family = .length → ∀ b ∈ bounds, 0 ≤ b.limit)
    (distinct : bounds.Pairwise fun a b => b.side = a.side → b.param.same a.param = false)
    (declares : family.Declares (bounds.map (IntBound.rule family)) s) :
    PassesWhen (bounds.Pairwise IntBound.Agrees) (w.bindRules s site []) (bounds.map (IntBound.bound family)) := by
  have each : s.rules.mapM (w.bindRule s site) = .ok (bounds.map (IntBound.bound family)) := by
    rw [declares.ruled]
    exact mapM_of_each fun b hb => bindRule_bound knows hb (fun length => natural length b hb) declares
  rw [Workshop.bindRules, each]
  change PassesWhen _ (BoundRule.checkConflicts site [] (bounds.map (IntBound.bound family)) >>= fun _ => Except.ok _) _
  have conflicts : PassesWhen _ (BoundRule.checkConflicts site ([].map (IntBound.bound family)) _) () :=
    IntBound.checkConflicts_bounds (by simp) distinct
  obtain ⟨agree, passed⟩ | ⟨apart, r, refused, kind⟩ := conflicts
  · rw [List.map_nil] at passed
    rw [passed]
    exact .passes agree.2 rfl
  · rw [List.map_nil] at refused
    rw [refused]
    exact .refuses (fun agree => apart ⟨by simp, agree⟩) ⟨r, rfl, kind⟩

/-- Compiling a shape of bounds comes to binding its rules. -/
theorem compile_declared (declares : family.Declares rules s) :
    w.compile site s = (w.bindRules s site []).map family.node := by
  cases declares with
  | value =>
    rw [Shape.scalar, Workshop.compile]
    cases w.bindRules _ site [] <;> rfl
  | option =>
    rw [Shape.wrapper, Wrapper.kind, Workshop.compile]
    cases w.bindRules _ site [] <;> rfl
  | length inner =>
    rw [Shape.wrapper, Wrapper.kind, Workshop.compile]
    cases w.bindRules _ site [] with
    | error f => rfl
    | ok rules => obtain rfl | rfl := inner <;> rfl

end Declaring

/-! ### Passing -/

/-- A value that a node finds nothing wrong with. -/
def Node.Passes (node : Node) (h : Host) (v : Value) : Prop :=
  ∃ report, node.validate h v = .ok report ∧ report.valid = true

section Passing
variable {h : Host} {v p : Value} {family : BoundFamily} {n m : Int}

theorem Node.passes_iff {node : Node} : node.Passes h v ↔ walk h node v = .ok [] := by
  rw [Passes, Node.validate_eq_walk]
  cases walk h node v with
  | error f => simp [Except.map]
  | ok vs => simp [Except.map, Report.valid_of_iff]

/-- A rule with a check of the engine finds nothing when the check does. -/
theorem BoundRule.violations_builtin {f : ConstraintFunction} {c : BuiltinCheck} (check : f.check = .builtin c) :
    BoundRule.violations h ⟨f, p⟩ v = [] ↔ c.run h v p = .ok none := by
  simp only [BoundRule.violations, ConstraintFunction.evaluate, check]
  rcases c.run h v p with fault | _ | d <;> simp [ConstraintFunction.verdictOfFault]

theorem BoundRule.violationsAll_eq_nil {rules : List BoundRule} :
    BoundRule.violationsAll h rules v = [] ↔ ∀ rule ∈ rules, rule.violations h v = [] := by
  rw [BoundRule.violationsAll, List.flatMap_eq_nil_iff]

theorem BoundFamily.run_check (side : BoundSide) : (family.check side).run h v p = match family with
    | .value => Check.compare side v p
    | .option => if v.isAbsent then .ok none else Check.compare side v p
    | .length => Check.length side v p := by
  cases family <;> cases side <;> rfl

theorem IntBound.beyond_iff (b : IntBound) (whole : v.Whole n) : b.side.beyond v b.param = .ok false ↔ b.Admits n := by
  have under := whole.lt b.whole
  have above := whole.gt b.whole
  unfold Admits
  cases b.side with
  | lower => simp [BoundSide.beyond, under]
  | upper => simp [BoundSide.beyond, above]

theorem violations_bound (sample : family.Sample v n) (b : IntBound) :
    (b.bound family).violations h v = [] ↔ b.Admits n := by
  have check : (family.function b.side).check = .builtin (family.check b.side) := rfl
  rw [IntBound.bound, BoundRule.violations_builtin check, BoundFamily.run_check]
  cases sample with
  | value | option =>
    have defined : (Value.int n).isUndefined = false := rfl
    exact Check.compare_eq_none.trans ((and_iff_right defined).trans (b.beyond_iff (Value.whole_int n)))
  | @length items present =>
    have within := b.beyond_iff (Value.whole_int items.length)
    refine Check.length_eq_none.trans ⟨?_, fun admits => ⟨items.length, rfl, within.mpr admits⟩⟩
    rintro ⟨n, length, passed⟩
    cases length
    exact within.mp passed

/-- Of a sequence in which nothing is absent the rules are all there is to check, when nothing is said of its
elements. -/
theorem walk_sequence_untyped {rules : List BoundRule} {items : List Value} (hitems : v.elements? = some items)
    (present : ∀ x ∈ items, ¬x.isAbsent = true) :
    walk h (.wrapper .sequence rules (some (.scalar [] .absent)) none) v = .ok (BoundRule.violationsAll h rules v) := by
  rw [walk_sequence (Hint.present_of_elements hitems) hitems]
  refine (congrArg (andThen _) ((Hint.inTurn_map_ok (f := fun _ => []) fun e he => ?_).trans (by simp))).trans
    (andThen_nil _)
  exact congrArg (inward _) (Hint.walk_untyped (present e.1 (List.fst_mem_of_mem_zipIdx he)))

/-- A sample passes a node of bounds when it is within all of them. -/
theorem passes_bounds (sample : family.Sample v n) (bounds : List IntBound) :
    (family.node (bounds.map (IntBound.bound family))).Passes h v ↔ ∀ b ∈ bounds, b.Admits n := by
  have rules : BoundRule.violationsAll h (bounds.map (IntBound.bound family)) v = [] ↔ ∀ b ∈ bounds, b.Admits n := by
    rw [BoundRule.violationsAll_eq_nil, List.forall_mem_map]
    exact forall₂_congr fun b _ => violations_bound sample b
  rw [Node.passes_iff, ← rules]
  cases sample with
  | value =>
    rw [BoundFamily.node, walk_scalar (by simp [Value.isAbsent])]
    simp [Value.fits, Value.isBuiltin, Value.isInstance?, Except.map]
  | option =>
    have inner : walk h (.scalar [] (.cls (.builtin .int) [])) (.int n) = .ok [] :=
      walk_scalar (by simp [Value.isAbsent])
    rw [BoundFamily.node, walk_optional (by simp [Value.isAbsent]), inner, andThen_nil, Except.ok.injEq]
  | @length items present =>
    rw [BoundFamily.node, walk_sequence_untyped rfl present, Except.ok.injEq]

/-- Bounds agree pair by pair when they admit a sample of what they bound. -/
theorem agree_iff_sample {bounds : List IntBound} (natural : family = .length → ∀ b ∈ bounds, 0 ≤ b.limit) :
    bounds.Pairwise IntBound.Agrees ↔ ∃ v n, family.Sample v n ∧ ∀ b ∈ bounds, b.Admits n := by
  constructor
  · intro agree
    obtain ⟨n, admits, chosen⟩ := IntBound.exists_admitted agree
    cases family with
    | value => exact ⟨_, n, .value, admits⟩
    | option => exact ⟨_, n, .option, admits⟩
    | length =>
      have positive : 0 ≤ n := by
        obtain rfl | ⟨b, hb, rfl⟩ := chosen
        · exact Int.le_refl 0
        · exact natural rfl b hb
      have zeros : BoundFamily.Sample .length (.list (List.replicate n.toNat (.int 0)))
          (List.replicate n.toNat (Value.int 0)).length := by
        refine .length fun x hx => ?_
        rw [List.eq_of_mem_replicate hx]
        simp [Value.isAbsent]
      rw [List.length_replicate, Int.toNat_of_nonneg positive] at zeros
      exact ⟨_, n, zeros, admits⟩
  · rintro ⟨v, n, -, admits⟩
    exact List.pairwise_of_forall_mem_list fun a ha b hb => IntBound.agrees_of_admits (admits a ha) (admits b hb)

end Passing

section Fields
variable {b : SchemaBuilder} {h : Host} {t : FunctionTable} {name : Value} {spelling : ShapeSpelling}
variable {spelled : List RuleSpelling} {named : List (String × Value)} {family : BoundFamily} {shape : Shape}
variable {own added : List IntBound}

theorem fieldNode_bounds {site : Site} (known : ∀ side, t.find? (family.name side) = some (family.function side))
    (declares : family.Declares (own.map (IntBound.rule family)) shape)
    (resolves : ∀ x ∈ own ++ added, (b.workshop h t).resolve (family.function x.side) x.param = .ok x.param)
    (natural : family = .length → ∀ x ∈ own ++ added, 0 ≤ x.limit)
    (distinct : (own ++ added).Pairwise fun x y => y.side = x.side → y.param.same x.param = false) :
    PassesWhen ((own ++ added).Pairwise IntBound.Agrees) (b.fieldNode h t site shape (added.map (IntBound.rule family)))
      (family.node ((own ++ added).map (IntBound.bound family))) := by
  have level := declares.withRules (added.map (IntBound.rule family))
  rw [← List.map_append] at level
  have placed : (added.map (IntBound.rule family)).foldlM (SchemaBuilder.placeRule site (b.workshop h t)) shape
      = .ok (shape.withRules (added.map (IntBound.rule family))) := placeRule_bounds known declares
  have compiled : (b.workshop h t).compile site (shape.withRules (added.map (IntBound.rule family)))
      = ((b.workshop h t).bindRules (shape.withRules (added.map (IntBound.rule family))) site []).map family.node :=
    compile_declared level
  rw [SchemaBuilder.fieldNode, placed]
  change PassesWhen _ ((b.workshop h t).compile site _) _
  rw [compiled]
  obtain ⟨agree, passed⟩ | ⟨apart, r, refused, kind⟩ :=
    bindRules_bounds ⟨known, resolves⟩ natural distinct level
  · rw [passed]
    exact .passes agree rfl
  · rw [refused]
    exact .refuses apart ⟨r, rfl, kind⟩

/-- A field of bounds is accepted when they agree pair by pair. -/
theorem field_bounds (known : ∀ side, t.find? (family.name side) = some (family.function side))
    (new : ∀ e ∈ b.fields, e.1.eq name = false) (shaped : Shape.ofSpelling spelling = .ok shape)
    (declares : family.Declares (own.map (IntBound.rule family)) shape)
    (ruled : Rule.ofSpellings spelled named = .ok (added.map (IntBound.rule family)))
    (resolves : ∀ x ∈ own ++ added, (b.workshop h t).resolve (family.function x.side) x.param = .ok x.param)
    (natural : family = .length → ∀ x ∈ own ++ added, 0 ≤ x.limit)
    (distinct : (own ++ added).Pairwise fun x y => y.side = x.side → y.param.same x.param = false) :
    PassesWhen ((own ++ added).Pairwise IntBound.Agrees) (b.field h t name spelling spelled named)
      { b with fields := b.fields ++ [(name, family.node ((own ++ added).map (IntBound.bound family)))] } := by
  have node : PassesWhen _ (b.fieldNode h t { schema := b.name, field := some name } shape _) _ :=
    fieldNode_bounds known declares resolves natural distinct
  rw [SchemaBuilder.field_spelled new shaped ruled]
  obtain ⟨agree, passed⟩ | ⟨apart, r, refused, kind⟩ := node
  · rw [passed]
    exact .passes agree rfl
  · rw [refused]
    exact .refuses apart ⟨r, rfl, kind⟩

end Fields

/-- Declaring bounds by whole numbers, any number of them on both sides and no two the same: the field is accepted exactly
when some value passes the node that it gets, which has all of these bounds; otherwise it is refused because of a
conflict. So it is for bounds of a whole number, of one that may be absent, and of the length of a sequence. -/
theorem accepted_iff_satisfiable {b : SchemaBuilder} {h : Host} {t : FunctionTable} {name : Value} {spelling : ShapeSpelling}
    {spelled : List RuleSpelling} {named : List (String × Value)} {family : BoundFamily} {shape : Shape}
    {own added : List IntBound} (known : ∀ side, t.find? (family.name side) = some (family.function side))
    (new : ∀ e ∈ b.fields, e.1.eq name = false) (shaped : Shape.ofSpelling spelling = .ok shape)
    (declares : family.Declares (own.map (IntBound.rule family)) shape)
    (ruled : Rule.ofSpellings spelled named = .ok (added.map (IntBound.rule family)))
    (resolves : ∀ x ∈ own ++ added, (b.workshop h t).resolve (family.function x.side) x.param = .ok x.param)
    (natural : family = .length → ∀ x ∈ own ++ added, 0 ≤ x.limit)
    (distinct : (own ++ added).Pairwise fun x y => y.side = x.side → y.param.same x.param = false) :
    ((∃ b', b.field h t name spelling spelled named = .ok b') ↔
      ∃ v n, family.Sample v n ∧ (family.node ((own ++ added).map (IntBound.bound family))).Passes h v) ∧
    (∀ b', b.field h t name spelling spelled named = .ok b' →
      b' = { b with fields := b.fields ++ [(name, family.node ((own ++ added).map (IntBound.bound family)))] }) ∧
    ∀ f, b.field h t name spelling spelled named = .error f →
      ∃ r, f = .refused r ∧ r.kind = .conflictingConstraint := by
  have satisfiable : (own ++ added).Pairwise IntBound.Agrees ↔
      ∃ v n, family.Sample v n ∧ (family.node ((own ++ added).map (IntBound.bound family))).Passes h v := by
    rw [agree_iff_sample natural]
    exact exists₂_congr fun v n => and_congr_right fun sample => (passes_bounds sample _).symm
  rw [← satisfiable]
  obtain ⟨agree, accepted⟩ | ⟨apart, r, refused, kind⟩ :=
    field_bounds (h := h) known new shaped declares ruled resolves natural distinct
  · rw [accepted]
    refine ⟨⟨fun _ => agree, fun _ => ⟨_, rfl⟩⟩, fun b' hb' => ?_, nofun⟩
    cases hb'
    rfl
  · rw [refused]
    refine ⟨⟨nofun, fun agree => absurd agree apart⟩, nofun, fun f hf => ?_⟩
    cases hf
    exact ⟨r, rfl, kind⟩

abbrev IntBound.of (side : BoundSide) (n : Int) : IntBound := ⟨side, .int n, n, Value.whole_int n⟩

/-- Points from one to three can be declared, as two is within the bounds. -/
theorem accepted_iff_satisfiable_of_points :
    ∃ b', SchemaBuilder.field { name := .text "Score" } .bare .default (.text "points")
      (.shape (.scalar (.cls (.builtin .int) []) [⟨"min", .int 1⟩])) [] [("max", .int 3)] = .ok b' := by
  have declares : BoundFamily.value.Declares ([IntBound.of .lower 1].map (IntBound.rule .value))
      (.scalar (.cls (.builtin .int) []) [⟨"min", .int 1⟩]) := .value
  have ruled : Rule.ofSpellings [] [("max", .int 3)] = .ok ([IntBound.of .upper 3].map (IntBound.rule .value)) := rfl
  have resolves : ∀ x ∈ [IntBound.of .lower 1] ++ [IntBound.of .upper 3],
      (SchemaBuilder.workshop { name := .text "Score" } .bare .default).resolve (BoundFamily.value.function x.side) x.param
        = .ok x.param := fun _ _ => rfl
  have distinct : ([IntBound.of .lower 1] ++ [IntBound.of .upper 3]).Pairwise fun x y =>
      y.side = x.side → y.param.same x.param = false := by simp
  have new : ∀ e ∈ ({ name := .text "Score" } : SchemaBuilder).fields, e.1.eq (.text "points") = false := by simp
  have shaped : Shape.ofSpelling (.shape (.scalar (.cls (.builtin .int) []) [⟨"min", .int 1⟩])) = .ok _ := rfl
  have outcome :=
    accepted_iff_satisfiable (BoundFamily.find?_default .value) new shaped declares ruled resolves nofun distinct
  refine outcome.1.mpr ⟨.int 2, 2, .value, (passes_bounds .value _).mpr ?_⟩
  simp [IntBound.Admits]

end Conform
