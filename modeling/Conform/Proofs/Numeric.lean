import Conform.Proofs.Comparing
import Conform.Proofs.Levels

/-!
Numbers and the types that are declared for them. The type of a parameter is asked for when it is declared, that of a
value when it is validated, and the two questions are not the same. For every type of numbers but the complex ones they
go together: a value of the type is accepted as the expected value of a field, and a bound that is accepted can be
compared with every value of the type, as long as neither is undefined. No complex number is accepted as a parameter
where complex numbers are declared, and the bounds that are accepted there cannot be compared with any
(`numbers_typed_alike`).
-/

namespace Conform

/-- A value as programs have it: the members of an enumeration of whole numbers carry whole numbers. -/
def Value.Genuine (v : Value) : Prop :=
  ∀ e name payload, v = .member e name payload → e.base = .int → ∃ n, payload = .int n

/-- The class of the values that a rule on a node sees, when the node is a scalar or an optional one. -/
def Node.declaredType : Node → Value
  | .scalar _ type => type
  | .wrapper .optional _ inner _ => match inner with
    | some n => n.declaredType
    | none => .absent
  | _ => .absent

/-- A bound that a node has at some level where the values are of a type. -/
structure Node.HasBound (n : Node) (type : Value) (family : BoundFamily) (side : BoundSide) (rule : BoundRule) : Prop where
  level : ∃ m ∈ n.levels, m.declaredType = type ∧ rule ∈ m.rules
  function : rule.function = family.function side
  values : family ≠ .length

namespace BoundSide

/-- How a bound tells that a value is beyond it. -/
def wording : BoundSide → String
  | .lower => " is less than " | .upper => " is greater than "

/-- What a bound says of a number: nothing when the number is not beyond it, and else that it is; of an undefined
floating number that it is undefined; and when a decimal meets an undefined number, that the question was a fault. -/
inductive Judges (side : BoundSide) (name : String) (v p : Value) : List Violation → Prop where
  | within (defined : v.isUndefined = false) (passes : side.beyond v p = .ok false) : Judges side name v p []
  | beyond (defined : v.isUndefined = false) (fails : side.beyond v p = .ok true) :
      Judges side name v p [Violation.report name (details [("bound", p), ("actual", .text v.str),
        ("message", .text (v.str ++ side.wording ++ p.str))]) []]
  | undefined (nan : v.isUndefined = true) :
      Judges side name v p [Violation.report name (details [("bound", p), ("actual", .text v.str),
        ("message", .text "value is NaN, which cannot be compared")]) []]
  | unanswered (fault : side.beyond v p = .error .undefinedDecimal)
      (nan : v.magnitude? = some .undefined ∨ p.magnitude? = some .undefined) :
      Judges side name v p [Violation.report name (details
        [("message", .text ("constraint '" ++ name ++ "' raised " ++ Fault.undefinedDecimal.kind ++ ": "
          ++ Fault.undefinedDecimal.message)), ("exception", .text Fault.undefinedDecimal.kind)]) []]

end BoundSide

/-! ### Types of numbers -/

namespace ParameterCheck
variable {c : ClassRef} {attributes : List (String × Value)} {v p : Value} {s : Shape}

theorem suits_numeric (numeric : c.isNumeric = true) : suits p (.cls c attributes) =
    .ok (if c = .builtin .bool then p.isBuiltin .bool else p.isRealNumber) := by
  unfold suits
  simp only [requireClass, bind, Except.bind, numeric, if_true]
  split <;> rfl

/-- A value of a type of numbers suits the type, unless the numbers are complex. -/
theorem suits_of_fits (numeric : c.isNumeric = true) (real : c ≠ .builtin .complex)
    (fits : v.fits (.cls c attributes) = .ok true) : suits v (.cls c attributes) = .ok true := by
  rw [suits_numeric numeric]
  cases c with
  | builtin k =>
    cases k with
    | bool | int | float | decimal | fraction =>
      cases v <;> simp_all [Value.fits, Value.isBuiltin, Value.isInstance?, Value.isRealNumber]
    | complex => exact absurd rfl real
    | _ => cases numeric
  | enumeration e => cases v <;> simp_all [Value.fits, Value.isBuiltin, Value.isInstance?, Value.isRealNumber, ClassRef.isNumeric]
  | any => cases numeric
  | declared d => cases numeric

theorem present_of_suits (numeric : c.isNumeric = true) (suited : suits v (.cls c attributes) = .ok true) :
    ¬v.isAbsent = true := by
  rw [suits_numeric numeric, Except.ok.injEq] at suited
  cases v with
  | absent => split at suited <;> cases suited
  | _ => exact Bool.false_ne_true

/-- What suits a type of numbers has a place among the numbers. -/
theorem magnitude_of_suits (numeric : c.isNumeric = true) (suited : suits p (.cls c attributes) = .ok true)
    (genuine : p.Genuine) : ∃ x, p.magnitude? = some x := by
  rw [suits_numeric numeric, Except.ok.injEq] at suited
  cases p with
  | bool | int | float | decimal | fraction => exact ⟨_, rfl⟩
  | member e name payload =>
    have base : e.base = .int := by
      by_contra other
      split at suited <;> simp_all [Value.isBuiltin, Value.isRealNumber]
    obtain ⟨n, rfl⟩ := genuine e name payload rfl base
    exact ⟨.ofInt n, by simp [Value.magnitude?, base]⟩
  | _ => split at suited <;> cases suited

/-- The problems that are found with a bound are texts that are not empty, and so they are heard. -/
theorem suits_of_ordinal {h : Host} (accepted : run h .ordinal p s = .ok none) : suits p s.declaredType = .ok true := by
  have heard (start rest : String) (some : start ≠ "") : problemOf (saying (.some (start ++ rest))) ≠ none := by
    simp [saying, problemOf, Value.truthy, Value.length?, some]
  obtain ⟨outcome, answered, silent⟩ := Except.map_eq_ok.mp accepted
  obtain ⟨problem, checked, rfl⟩ := Except.map_eq_ok.mp answered
  unfold checkOrdinal at checked
  split at checked
  · cases checked
    exact absurd silent (heard "bound " "must not be None" (by decide))
  · obtain ⟨suited, hs, checked⟩ := Except.bind_eq_ok.mp checked
    cases suited with
    | true => exact hs
    | false =>
      cases checked
      rw [String.append_assoc, String.append_assoc] at silent
      exact absurd silent (heard _ _ (by decide))

end ParameterCheck
/-! ### Comparing numbers -/

section Comparing
variable {side : BoundSide} {v p : Value} {x y : Magnitude}

theorem Value.lt_of_magnitudes (hv : v.magnitude? = some x) (hp : p.magnitude? = some y) : v.lt p = numberLt v p x y := by
  have scalar : v.lt p = scalarLt v p := by
    cases v with
    | sequence => cases hv
    | _ => rw [Value.lt]; simp
  simp only [scalar, scalarLt, hv, hp]

theorem Value.numberLt_cases (v p : Value) (x y : Magnitude) : (∃ r, numberLt v p x y = .ok r) ∨
    numberLt v p x y = .error .undefinedDecimal ∧ (x = .undefined ∨ y = .undefined) := by
  rw [numberLt_eq]
  split
  · next undefined => exact .inr ⟨rfl, by simpa using (Bool.and_eq_true_iff.mp undefined).2⟩
  · exact .inl ⟨_, rfl⟩

/-- Whether a number is beyond a bound can be said, unless one of them is undefined. -/
theorem BoundSide.beyond_numbers (hv : v.magnitude? = some x) (hp : p.magnitude? = some y) :
    (∃ r, side.beyond v p = .ok r) ∨ side.beyond v p = .error .undefinedDecimal ∧
      (v.magnitude? = some .undefined ∨ p.magnitude? = some .undefined) := by
  cases side with
  | lower =>
    rw [BoundSide.beyond, Value.lt_of_magnitudes hv hp, hv, hp]
    simpa using Value.numberLt_cases v p x y
  | upper =>
    rw [BoundSide.beyond, Value.gt, Value.lt_of_magnitudes hp hv, hv, hp]
    obtain ⟨r, hr⟩ | ⟨failed, undefined⟩ := Value.numberLt_cases p v y x
    · exact .inl ⟨r, by rw [hr]; rfl⟩
    · exact .inr ⟨by rw [failed]; rfl, by simpa using undefined.symm⟩

end Comparing

section Bounds
variable {h : Host} {family : BoundFamily} {side : BoundSide} {v p : Value} {x y : Magnitude} {rule : BoundRule}

/-- A bound on a value that is present runs the comparison. -/
theorem BoundRule.violations_compare (bounds : family ≠ .length) (function : rule.function = family.function side)
    (present : ¬v.isAbsent = true) : rule.violations h v = match Check.compare side v rule.param with
      | .ok none => []
      | .ok (some d) => [Violation.report (family.name side) d []]
      | .error f => [Violation.report (family.name side) (details
          [("message", .text ("constraint '" ++ family.name side ++ "' raised " ++ f.kind ++ ": " ++ f.message)),
            ("exception", .text f.kind)]) []] := by
  obtain ⟨function', param⟩ := rule
  obtain rfl : function' = family.function side := function
  have run : (family.check side).run h v param = Check.compare side v param := by
    rw [BoundFamily.run_check]
    cases family with
    | value => rfl
    | option => exact if_neg present
    | length => exact absurd rfl bounds
  have check : (family.function side).check = .builtin (family.check side) := rfl
  simp only [BoundRule.violations, ConstraintFunction.evaluate, check, run]
  rcases Check.compare side v param with f | _ | d <;> rfl

theorem Check.compare_defined (defined : v.isUndefined = false) : Check.compare side v p = match side.beyond v p with
    | .ok true => .ok (some (details [("bound", p), ("actual", .text v.str),
        ("message", .text (v.str ++ side.wording ++ p.str))]))
    | .ok false => .ok none
    | .error f => if f.isTypeFault then .ok (some (details [("bound", p), ("actual", .text v.str),
        ("message", .text ("cannot compare " ++ v.className ++ " with " ++ p.className))])) else .error f := by
  unfold Check.compare
  change (if v.isUndefined = true then _ else _) = _
  rw [if_neg (Bool.eq_false_iff.mp defined)]
  cases side <;> rfl

/-- What a bound says of a number is said by comparing the two, and they can be compared unless one is undefined. -/
theorem BoundRule.judges (bounds : family ≠ .length) (function : rule.function = family.function side)
    (hv : v.magnitude? = some x) (hp : rule.param.magnitude? = some y) :
    side.Judges (family.name side) v rule.param (rule.violations h v) := by
  have present : ¬v.isAbsent = true := by cases v <;> first | exact Bool.false_ne_true | cases hv
  rw [BoundRule.violations_compare bounds function present]
  cases nan : v.isUndefined with
  | true =>
    have compared : Check.compare side v rule.param = _ := if_pos nan
    rw [compared]
    exact .undefined nan
  | false =>
    rw [Check.compare_defined nan]
    obtain ⟨_ | _, answered⟩ | ⟨fault, undefined⟩ := @BoundSide.beyond_numbers side _ _ _ _ hv hp
    · rw [answered]
      exact .within nan answered
    · rw [answered]
      exact .beyond nan answered
    · rw [fault]
      exact .unanswered fault undefined

end Bounds
/-! ### Levels -/

namespace Workshop
variable {w : Workshop} {c : ClassRef} {attributes : List (String × Value)} {v : Value}

/-- The rules of a node see the class that those of its shape were checked with. -/
theorem compile_declaredType {site : Site} {s : Shape} {n : Node} (h : w.compile site s = .ok n) :
    n.declaredType = s.declaredType := by
  cases s with
  | mk kind rules type inner keys target cases tag =>
    obtain ⟨bound, -, ⟨rfl, -, rfl⟩ | ⟨wr, rfl, i, k, hi, -, rfl⟩ | ⟨rfl, -, rfl⟩ | ⟨rfl, all, done, -, -, -, rfl⟩⟩ :=
      compile_cases h
    · rfl
    · cases wr with
      | optional =>
        cases inner with
        | none =>
          rw [compileInner] at hi
          cases hi
          simp [Wrapper.kind, Shape.declaredType, Node.declaredType]
        | some s =>
          rw [compileInner] at hi
          simpa [Wrapper.kind, Shape.declaredType, Node.declaredType] using compile_declaredType hi
      | sequence | mapping => rfl
    · rfl
    · rfl

/-- A bound of a compiled node was found to suit the type of its values. -/
theorem compile_suits {site : Site} {s : Shape} {n : Node} {type : Value} {rule : BoundRule} {family : BoundFamily}
    {side : BoundSide} (h : w.compile site s = .ok n) (bound : n.HasBound type family side rule) :
    ParameterCheck.suits rule.param type = .ok true := by
  obtain ⟨⟨m, hm, rfl, hr⟩, function, values⟩ := bound
  obtain ⟨site, s, compiled, -, fits⟩ := (compile_levels _ _ h m hm).rules
  have ordinal : rule.function.checkParam = some .ordinal := by
    rw [function, BoundFamily.function, if_neg values]
  rw [compile_declaredType compiled]
  exact ParameterCheck.suits_of_ordinal ((fits rule hr).passes _ ordinal)

end Workshop

/-! ### Expected values -/

/-- The function that compares with an expected value. -/
def FunctionTable.equality : ConstraintFunction :=
  { name := "equal", check := .builtin .equal, checkParam := some .equal, exclusive := true, description := "value == expected" }

section Expected
variable {w : Workshop} {site : Site} {h : Host} {c : ClassRef} {attributes : List (String × Value)} {raw v : Value}

/-- A scalar with one rule is compiled to a scalar with one rule, if the rule can be bound. -/
theorem Workshop.compile_single {type : Value} {rule : Rule} (ht : type = .absent ∨ ∃ c attributes, type = .cls c attributes) :
    w.compile site (.scalar type [rule])
      = (w.bindRule (.scalar type [rule]) site rule).map fun bound => .scalar [bound] type := by
  have bound : w.bindRules (.scalar type [rule]) site [] = (w.bindRule (.scalar type [rule]) site rule).map fun b => [b] := by
    rw [bindRules, Shape.scalar, Shape.rules, List.mapM_cons]
    cases w.bindRule _ site rule <;> rfl
  rw [Shape.scalar] at bound ⊢
  rw [compile, bound]
  obtain rfl | ⟨c, attributes, rfl⟩ := ht <;> cases w.bindRule _ site rule <;> rfl

theorem SchemaBuilder.fieldNode_single {b : SchemaBuilder} {t : FunctionTable} {f : ConstraintFunction} {type : Value}
    {rule : Rule} (found : t.find? rule.name = some f) (applies : f.appliesTo.contains .scalar = true)
    (ht : type = .absent ∨ ∃ c attributes, type = .cls c attributes) :
    b.fieldNode h t site (.scalar type []) [rule]
      = ((b.workshop h t).bindRule (.scalar type [rule]) site rule).map fun bound => .scalar [bound] type := by
  have looked : (b.workshop h t).lookUp rule.name site = .ok f := Workshop.lookUp_of_find? found
  have placed : placeRule site (b.workshop h t) (.scalar type []) rule = .ok (.scalar type [rule]) := by
    simp only [placeRule, looked, bind, Except.bind, Shape.place_here (s := .scalar type []) rule applies]
    rfl
  rw [fieldNode, List.foldlM_cons, placed, ← Workshop.compile_single ht]
  rfl

theorem ParameterCheck.run_equal {s : Shape} {suited : Bool} (hs : suits v s.declaredType = .ok suited) : run h .equal v s =
    .ok (if suited then none else some ("expected value " ++ v.repr ++ " does not match " ++ s.declaredType.typeLabel)) := by
  have checked : checkEqual v s
      = .ok (if suited then none else some ("expected value " ++ v.repr ++ " does not match " ++ s.declaredType.typeLabel)) := by
    rw [checkEqual, hs]
    cases suited <;> rfl
  rw [run, answer, checked]
  cases suited with
  | true => rfl
  | false => simp [Except.map, saying, problemOf, Value.truthy, Value.length?, Value.str]

variable {b : SchemaBuilder} {t : FunctionTable} {name : Value}

/-- Declaring a class of scalars with an expected value comes to asking whether the value suits the class. -/
theorem SchemaBuilder.field_equal (fresh : ∀ e ∈ b.fields, e.1.eq name = false)
    (found : t.find? "equal" = some FunctionTable.equality)
    (resolved : (b.workshop h t).resolve FunctionTable.equality raw = .ok v) {suited : Bool}
    (hs : ParameterCheck.suits v (.cls c attributes) = .ok suited) :
    b.field h t name (.value (.cls c attributes)) [.rule ⟨"equal", raw⟩] [] =
      if suited then
        .ok { b with fields := b.fields ++ [(name, .scalar [⟨FunctionTable.equality, v⟩] (.cls c attributes))] }
      else .error (.refused (.badParameter "equal" ("expected value " ++ v.repr ++ " does not match " ++ c.name) v
        { schema := b.name, field := some name })) := by
  have looked (site : Site) : (b.workshop h t).lookUp "equal" site = .ok FunctionTable.equality :=
    Workshop.lookUp_of_find? found
  have ran : ParameterCheck.run h .equal v (.scalar (.cls c attributes) [⟨"equal", raw⟩]) = _ := ParameterCheck.run_equal hs
  have shaped : Shape.ofSpelling (.value (.cls c attributes)) = .ok (.scalar (.cls c attributes) []) := rfl
  have spelled : Rule.ofSpellings [.rule ⟨"equal", raw⟩] [] = .ok [⟨"equal", raw⟩] := rfl
  rw [field_spelled fresh shaped spelled, fieldNode_single found rfl (.inr ⟨c, attributes, rfl⟩)]
  cases suited with
  | true =>
    rw [Workshop.bindRule_ok (looked _) rfl resolved fun check hc => Option.some.inj hc ▸ ran]
    rfl
  | false =>
    rw [Workshop.bindRule_refused (looked _) rfl resolved rfl ran]
    rfl

/-- A value of the class passes with itself as the expected value when it equals itself. -/
theorem Node.passes_equal (fits : v.fits (.cls c attributes) = .ok true) (present : ¬v.isAbsent = true) :
    (Node.scalar [⟨FunctionTable.equality, v⟩] (.cls c attributes)).Passes h v ↔ v.eq v = true := by
  have check : FunctionTable.equality.check = .builtin .equal := rfl
  have silent : Check.equal v v = none ↔ v.eq v = true := by
    unfold Check.equal
    split <;> simp_all
  rw [Node.passes_iff, walk_scalar present, fits, ← silent]
  change Except.ok (BoundRule.violationsAll h [⟨FunctionTable.equality, v⟩] v) = _ ↔ _
  rw [Except.ok.injEq, BoundRule.violationsAll_eq_nil, List.forall_mem_singleton, BoundRule.violations_builtin check]
  change Except.ok (Check.equal v v) = _ ↔ _
  rw [Except.ok.injEq]

end Expected

/-! ### Complex numbers -/

section Complex
variable {side : BoundSide} {p : Value} (z : Complex)

/-- No real number can be compared with a complex one. -/
theorem BoundSide.beyond_complex (real : p.isRealNumber = true) :
    ∃ f, side.beyond (.complex z) p = .error f ∧ f.isTypeFault = true := by
  have apart : (Value.complex z).pairing p = .apart ∧ p.pairing (.complex z) = .apart := by
    cases p with
    | member e name payload =>
      have base : e.base = .int := by simpa [Value.isRealNumber] using real
      cases payload <;> simp [Value.pairing, Value.magnitude?, Value.asText?, base]
    | int | float | decimal | fraction => exact ⟨rfl, rfl⟩
    | _ => cases real
  cases side with
  | lower =>
    refine ⟨_, ?_, Value.unorderedFault_isTypeFault (.complex z) p⟩
    rw [BoundSide.beyond, Value.lt, Value.scalarLt_eq, apart.1]
    simp
  | upper =>
    have below : p.lt (.complex z) = .error (Value.unorderedFault p (.complex z)) := by
      rw [Value.lt, Value.scalarLt_eq, apart.2]
      rintro k xs rfl
      cases real
    refine ⟨_, ?_, Value.flip_isTypeFault (Value.unorderedFault_isTypeFault p (.complex z))⟩
    rw [BoundSide.beyond, Value.gt, below]
    rfl

end Complex

/-- A value of a type of numbers other than the complex ones is accepted as the expected value of a field of the type, and
passes there when it equals itself. A bound that is accepted at a level of such a type says of every value of the type
whether it is beyond the bound, as long as neither is undefined. Of complex numbers none is accepted as the expected
value, and a bound that is accepted fails for each of them, because the two cannot be compared. -/
theorem numbers_typed_alike {b : SchemaBuilder} {h : Host} {t : FunctionTable} {name : Value} {c : ClassRef}
    {attributes : List (String × Value)} (numeric : c.isNumeric = true) :
    (c ≠ .builtin .complex →
      (∀ {raw v : Value}, (∀ e ∈ b.fields, e.1.eq name = false) → t.find? "equal" = some FunctionTable.equality →
        (b.workshop h t).resolve FunctionTable.equality raw = .ok v → v.fits (.cls c attributes) = .ok true →
        b.field h t name (.value (.cls c attributes)) [.rule ⟨"equal", raw⟩] [] = .ok { b with
            fields := b.fields ++ [(name, .scalar [⟨FunctionTable.equality, v⟩] (.cls c attributes))] } ∧
          ((Node.scalar [⟨FunctionTable.equality, v⟩] (.cls c attributes)).Passes h v ↔ v.eq v = true)) ∧
      ∀ {spelling : ShapeSpelling} {spellings : List RuleSpelling} {named : List (String × Value)} {b' : SchemaBuilder},
        b.field h t name spelling spellings named = .ok b' → ∃ n, b' = { b with fields := b.fields ++ [(name, n)] } ∧
          ∀ {family : BoundFamily} {side : BoundSide} {rule : BoundRule}, n.HasBound (.cls c attributes) family side rule →
            rule.param.Genuine → ∀ v : Value, v.Genuine → v.fits (.cls c attributes) = .ok true →
              side.Judges (family.name side) v rule.param (rule.violations h v)) ∧
    (c = .builtin .complex →
      (∀ {raw : Value} (z : Complex), (∀ e ∈ b.fields, e.1.eq name = false) → t.find? "equal" = some FunctionTable.equality →
        (b.workshop h t).resolve FunctionTable.equality raw = .ok (.complex z) →
        b.field h t name (.value (.cls c attributes)) [.rule ⟨"equal", raw⟩] [] = .error (.refused (.badParameter "equal"
          ("expected value " ++ (Value.complex z).repr ++ " does not match " ++ "complex") (.complex z)
          { schema := b.name, field := some name }))) ∧
      ∀ {spelling : ShapeSpelling} {spellings : List RuleSpelling} {named : List (String × Value)} {b' : SchemaBuilder},
        b.field h t name spelling spellings named = .ok b' → ∃ n, b' = { b with fields := b.fields ++ [(name, n)] } ∧
          ∀ {family : BoundFamily} {side : BoundSide} {rule : BoundRule}, n.HasBound (.cls c attributes) family side rule →
            ∀ z : Complex, rule.violations h (.complex z) = [Violation.report (family.name side) (details
              [("bound", rule.param), ("actual", .text (Value.complex z).str),
                ("message", .text ("cannot compare complex with " ++ rule.param.className))]) []]) := by
  refine ⟨fun real => ⟨fun {raw v} fresh found resolved fits => ?_, fun {spelling spellings named b'} accepted => ?_⟩, ?_⟩
  · have suited : ParameterCheck.suits v (.cls c attributes) = .ok true := ParameterCheck.suits_of_fits numeric real fits
    exact ⟨SchemaBuilder.field_equal fresh found resolved suited,
      Node.passes_equal fits (ParameterCheck.present_of_suits numeric suited)⟩
  · obtain ⟨-, site, s, n, compiled, rfl⟩ := SchemaBuilder.field_cases accepted
    refine ⟨n, rfl, fun {family side rule} bound genuine v hv fits => ?_⟩
    obtain ⟨y, hy⟩ := ParameterCheck.magnitude_of_suits numeric (Workshop.compile_suits compiled bound) genuine
    obtain ⟨x, hx⟩ := ParameterCheck.magnitude_of_suits numeric (ParameterCheck.suits_of_fits numeric real fits) hv
    exact BoundRule.judges bound.values bound.function hx hy
  · rintro rfl
    refine ⟨fun {raw} z fresh found resolved => ?_, fun {spelling spellings named b'} accepted => ?_⟩
    · have unsuited : ParameterCheck.suits (.complex z) (.cls (.builtin .complex) attributes) = .ok false := rfl
      exact (SchemaBuilder.field_equal fresh found resolved unsuited).trans (if_neg Bool.false_ne_true)
    · obtain ⟨-, site, s, n, compiled, rfl⟩ := SchemaBuilder.field_cases accepted
      refine ⟨n, rfl, fun {family side rule} bound z => ?_⟩
      have suited := Workshop.compile_suits compiled bound
      rw [ParameterCheck.suits_numeric numeric, Except.ok.injEq] at suited
      obtain ⟨f, failed, asked⟩ := @BoundSide.beyond_complex side _ z suited
      rw [BoundRule.violations_compare bound.values bound.function (by simp [Value.isAbsent]), Check.compare_defined rfl,
        failed]
      simp only [asked, if_true]
      rfl

/-- A field of floating numbers takes a whole number as its expected value, and lets it pass. The imaginary unit is no
expected value for a field of complex numbers. -/
theorem numbers_typed_alike_of_whole_number :
    (∃ b', SchemaBuilder.field { name := .text "Gauge" } .bare .default (.text "level")
        (.value (.cls (.builtin .float) [])) [.rule ⟨"equal", .int 3⟩] [] = .ok b' ∧
      (Node.scalar [⟨FunctionTable.equality, .int 3⟩] (.cls (.builtin .float) [])).Passes .bare (.int 3)) ∧
    ∃ r, SchemaBuilder.field { name := .text "Gauge" } .bare .default (.text "phase") (.value (.cls (.builtin .complex) []))
        [.rule ⟨"equal", .complex ⟨.finite false 0 0, .finite false 1 0⟩⟩] [] = .error (.refused r) := by
  obtain ⟨alike, -⟩ := @numbers_typed_alike { name := .text "Gauge" } .bare .default (.text "level") (.builtin .float) [] rfl
  obtain ⟨-, apart⟩ := @numbers_typed_alike { name := .text "Gauge" } .bare .default (.text "phase") (.builtin .complex) [] rfl
  obtain ⟨equal, -⟩ := alike (by decide)
  obtain ⟨refused, -⟩ := apart rfl
  obtain ⟨accepted, passes⟩ := @equal (.int 3) (.int 3) nofun rfl rfl rfl
  have itself : (Value.int 3).eq (.int 3) = true := by
    simp [Value.eq, Value.scalarEq, Value.magnitude?, Magnitude.same, Magnitude.ofInt]
  exact ⟨⟨_, accepted, passes.mpr itself⟩, _, refused _ nofun rfl rfl⟩

end Conform
