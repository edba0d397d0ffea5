import Conform.Object.Reading
import Conform.Proofs.Levels
import Conform.Proofs.Renaming

/-!
Declaring under new names. No constraint is told by its name: a builder with a table of renamed functions takes
declarations under the new names exactly when it takes them under the old ones, what it refuses it refuses with exceptions
of the same class, and what is built is the renamed schema.
-/

namespace Conform

/-! ### Renamed declarations -/

def Rule.rename (σ : String → String) (r : Rule) : Rule := { r with name := σ r.name }

def FunctionTable.rename (σ : String → String) (t : FunctionTable) : FunctionTable :=
  { t with functions := t.functions.map (ConstraintFunction.rename σ) }

mutual

/-- A shape that is declared for the schema of a number, under new names. -/
def Shape.rename (ρ : Renaming) (k : Nat) : Shape → Shape
  | .mk kind rules type inner keys target cases tag =>
    .mk kind (rules.map (Rule.rename (ρ k))) type (Shape.renameInner ρ k inner) (Shape.renameInner ρ k keys)
      (target.rename ρ) (Shape.renameChoice ρ k cases) tag

def Shape.renameInner (ρ : Renaming) (k : Nat) : Option Shape → Option Shape
  | none => none
  | some s => some (s.rename ρ k)

def Shape.renameChoice (ρ : Renaming) (k : Nat) : Option (List (Value × Payload)) → Option (List (Value × Payload))
  | none => none
  | some cases => some (Shape.renameCases ρ k cases)

def Shape.renameCases (ρ : Renaming) (k : Nat) : List (Value × Payload) → List (Value × Payload)
  | [] => []
  | (name, payload) :: rest => (name, payload.rename ρ k) :: Shape.renameCases ρ k rest

def Payload.rename (ρ : Renaming) (k : Nat) : Payload → Payload
  | .shape s => .shape (s.rename ρ k)
  | .target t => .target (t.rename ρ)

end

def ShapeSpelling.rename (ρ : Renaming) (k : Nat) : ShapeSpelling → ShapeSpelling
  | .shape s => .shape (s.rename ρ k)
  | .value v => .value v

section Shapes
variable {ρ : Renaming} {k : Nat}

@[simp] theorem Shape.kind_rename (s : Shape) : (s.rename ρ k).kind = s.kind := by
  cases s
  rfl

@[simp] theorem Shape.rules_rename (s : Shape) : (s.rename ρ k).rules = s.rules.map (Rule.rename (ρ k)) := by
  cases s
  rfl

@[simp] theorem Shape.rename_scalar (type : Value) (rules : List Rule) :
    (Shape.scalar type rules).rename ρ k = .scalar type (rules.map (Rule.rename (ρ k))) := rfl

theorem Shape.renameCases_eq : ∀ cases : List (Value × Payload),
    Shape.renameCases ρ k cases = cases.map fun x => (x.1, x.2.rename ρ k)
  | [] => rfl
  | (name, payload) :: rest => by
    rw [List.map_cons, ← Shape.renameCases_eq rest]
    rfl

theorem Shape.declaredType_rename (s : Shape) : (s.rename ρ k).declaredType = s.declaredType := by
  obtain ⟨kind, rules, type, inner, keys, target, cases, tag⟩ := s
  rw [Shape.rename]
  unfold Shape.declaredType
  cases kind with
  | optional =>
    rcases inner with _ | s
    · rw [Shape.renameInner]
    · rw [Shape.renameInner]
      exact Shape.declaredType_rename s
  | _ => rfl

theorem Shape.describe_rename (s : Shape) : (s.rename ρ k).describe = s.describe := by
  obtain ⟨kind, rules, type, inner, keys, target, cases, tag⟩ := s
  have names : (((Shape.renameChoice ρ k cases).getD []).map Prod.fst) = ((cases.getD []).map Prod.fst) := by
    rcases cases with _ | cases
    · rw [Shape.renameChoice]
    · rw [Shape.renameChoice, Shape.renameCases_eq]
      simp [Function.comp_def]
  rw [Shape.rename]
  unfold Shape.describe
  cases kind with
  | scalar => rfl
  | enum => simp only [names]
  | nested =>
    rcases target with s | v
    · rw [Target.rename]
      simp only [Target.nameAttribute?, Schema.name_rename]
    · rw [Target.rename]
  | optional | sequence | mapping =>
    rcases inner with _ | s
    · rw [Shape.renameInner]
    · rw [Shape.renameInner]
      simp only [Shape.describe_rename s]

theorem Shape.place_rename (kinds : List FieldKind) (rule : Rule) (s : Shape) :
    (s.rename ρ k).place kinds (rule.rename (ρ k)) = (s.place kinds rule).map (Shape.rename ρ k) := by
  obtain ⟨kind, rules, type, inner, keys, target, cases, tag⟩ := s
  rw [Shape.rename]
  unfold Shape.place
  split
  · rw [Option.map_some, Shape.rename, List.map_append]
    rfl
  · split
    · rcases inner with _ | s
      · rw [Shape.renameInner]
        dsimp only
        split <;> simp [Shape.rename, Shape.renameInner, Shape.scalar, Target.rename, Shape.renameChoice]
      · rw [Shape.renameInner]
        dsimp only
        rw [Shape.place_rename kinds rule s, Option.map_map, Option.map_map]
        refine congrArg (fun f => (s.place kinds rule).map f) (funext fun placed => ?_)
        simp only [Function.comp_apply, Shape.rename, Shape.renameInner]
    · rfl

theorem Shape.ofSpelling_rename (spelling : ShapeSpelling) :
    Shape.ofSpelling (spelling.rename ρ k) = (Shape.ofSpelling spelling).map (Shape.rename ρ k) := by
  rcases spelling with s | v
  · rfl
  · unfold Shape.ofSpelling ShapeSpelling.rename
    cases v <;> simp [Except.map]

end Shapes

/-! ### Ending alike -/

/-- Two computations end alike: with what they give and its image, or with exceptions of one class. -/
inductive EndsAlike {α β : Type} (g : α → β) : Except Fault α → Except Fault β → Prop
  | ok (a : α) : EndsAlike g (.ok a) (.ok (g a))
  | error {e e' : Fault} (same : e'.kind = e.kind) : EndsAlike g (.error e) (.error e')

namespace EndsAlike
variable {α β γ δ : Type} {g : α → β} {g' : γ → δ} {x : Except Fault α} {y : Except Fault β}

theorem refl (x : Except Fault α) : EndsAlike id x x := by
  cases x with
  | ok a => exact .ok a
  | error e => exact .error rfl

theorem bind {f : α → Except Fault γ} {f' : β → Except Fault δ} (first : EndsAlike g x y)
    (next : ∀ a, x = .ok a → EndsAlike g' (f a) (f' (g a))) : EndsAlike g' (x >>= f) (y >>= f') := by
  cases first with
  | ok a => exact next a rfl
  | error same => exact .error same

theorem map {f : α → γ} {f' : β → δ} (first : EndsAlike g x y) (next : ∀ a, f' (g a) = g' (f a)) :
    EndsAlike g' (x.map f) (y.map f') := by
  cases first with
  | ok a =>
    change EndsAlike g' (.ok (f a)) (.ok (f' (g a)))
    rw [next]
    exact .ok (f a)
  | error same => exact .error same

theorem mapM {ι κ : Type} {f : ι → Except Fault α} {f' : κ → Except Fault β} {r : ι → κ} {items : List ι}
    (each : ∀ i ∈ items, EndsAlike g (f i) (f' (r i))) : EndsAlike (List.map g) (items.mapM f) ((items.map r).mapM f') := by
  induction items with
  | nil => exact .ok []
  | cons i rest ih =>
    rw [List.map_cons, List.mapM_cons, List.mapM_cons]
    refine (each i List.mem_cons_self).bind fun a _ => ?_
    exact (ih fun j hj => each j (List.mem_cons_of_mem _ hj)).bind fun as _ => .ok (a :: as)

theorem foldlM {ι κ : Type} {f : α → ι → Except Fault α} {f' : β → κ → Except Fault β} {r : ι → κ} {items : List ι}
    (each : ∀ i ∈ items, ∀ a, EndsAlike g (f a i) (f' (g a) (r i))) :
    ∀ a, EndsAlike g (items.foldlM f a) ((items.map r).foldlM f' (g a)) := by
  induction items with
  | nil => exact fun a => .ok a
  | cons i rest ih =>
    intro a
    rw [List.map_cons, List.foldlM_cons, List.foldlM_cons]
    exact (each i List.mem_cons_self a).bind fun a' _ => ih (fun j hj => each j (List.mem_cons_of_mem _ hj)) a'

end EndsAlike

/-! ### Conflicts -/

namespace BoundRule
variable {σ : String → String} (inj : Function.Injective σ)

theorem checkBounds_rename (first second : BoundRule) (site : Site) :
    EndsAlike id (checkBounds first second site) (checkBounds (first.rename σ) (second.rename σ) site) := by
  have pair : boundPair (first.rename σ) (second.rename σ)
      = (boundPair first second).map fun p => (p.1.rename σ, p.2.rename σ) := by
    change (if first.function.group.isSome && first.function.group == second.function.group then
      if first.isBound "lower" && second.isBound "upper" then some (first.rename σ, second.rename σ)
      else if first.isBound "upper" && second.isBound "lower" then some (second.rename σ, first.rename σ)
      else none
    else none) = _
    unfold boundPair
    split
    · split
      · rfl
      · split <;> rfl
    · rfl
  unfold checkBounds
  rw [pair]
  rcases boundPair first second with _ | ⟨lower, upper⟩
  · exact .ok ()
  have params : (lower.rename σ).param.gt (upper.rename σ).param = lower.param.gt upper.param := rfl
  rw [Option.map_some]
  dsimp only
  rw [params]
  rcases lower.param.gt upper.param with f | _ | _
  · dsimp only
    split
    · exact .error rfl
    · exact .error rfl
  · exact .ok ()
  · exact .error rfl

include inj

theorem checkPair_rename (earlier rule : BoundRule) (site : Site) :
    EndsAlike id (checkPair earlier rule site) (checkPair (earlier.rename σ) (rule.rename σ) site) := by
  have names : (rule.rename σ).name = (earlier.rename σ).name ↔ rule.name = earlier.name := inj.eq_iff
  unfold checkPair
  simp only [names]
  change EndsAlike id _ (if rule.name = earlier.name ∧ rule.param.same earlier.param then _
    else if rule.name = earlier.name ∧ rule.function.exclusive then _ else _)
  split
  · exact .error rfl
  · split
    · exact .error rfl
    · exact checkBounds_rename earlier rule site

theorem checkAgainst_rename (rule : BoundRule) (site : Site) : ∀ earlier : List BoundRule,
    EndsAlike id (rule.checkAgainst site earlier) ((rule.rename σ).checkAgainst site (earlier.map (BoundRule.rename σ)))
  | [] => .ok ()
  | earlier :: rest => by
    rw [List.map_cons, checkAgainst, checkAgainst]
    have here := checkPair_rename inj earlier rule site
    revert here
    generalize checkPair earlier rule site = first
    generalize checkPair (earlier.rename σ) (rule.rename σ) site = first'
    rintro (_ | same)
    · exact checkAgainst_rename rule site rest
    · exact .error same

theorem checkConflicts_rename (site : Site) : ∀ (rules before : List BoundRule),
    EndsAlike id (checkConflicts site before rules)
      (checkConflicts site (before.map (BoundRule.rename σ)) (rules.map (BoundRule.rename σ)))
  | [], _ => .ok ()
  | rule :: rest, before => by
    rw [List.map_cons, checkConflicts, checkConflicts]
    have here := checkAgainst_rename inj rule site before
    revert here
    generalize rule.checkAgainst site before = first
    generalize (rule.rename σ).checkAgainst site (before.map (BoundRule.rename σ)) = first'
    rintro (_ | same)
    · have later := checkConflicts_rename site rest (before ++ [rule])
      rwa [List.map_append] at later
    · exact .error same

end BoundRule

/-! ### Binding -/

section Binding
variable {ρ : Renaming} {k : Nat} {h : Host} {t : FunctionTable}

theorem FunctionTable.find?_rename {σ : String → String} (inj : Function.Injective σ) (name : String) :
    (t.rename σ).find? (σ name) = (t.find? name).map (ConstraintFunction.rename σ) := by
  have same : (fun f : ConstraintFunction => f.name == σ name) ∘ ConstraintFunction.rename σ = fun f => f.name == name := by
    funext f
    rw [Function.comp_apply, Bool.eq_iff_iff, beq_iff_eq, beq_iff_eq]
    exact inj.eq_iff
  rw [find?, find?, rename, List.find?_map, same]

/-- Two checks of a parameter agree: nothing is wrong by both, something is wrong by both, or both raise exceptions of one
class. -/
inductive CheckedAlike : Except Fault (Option String) → Except Fault (Option String) → Prop
  | fine : CheckedAlike (.ok none) (.ok none)
  | wrong (problem problem' : String) : CheckedAlike (.ok (some problem)) (.ok (some problem'))
  | error {e e' : Fault} (same : e'.kind = e.kind) : CheckedAlike (.error e) (.error e')

theorem CheckedAlike.refl : ∀ x, CheckedAlike x x
  | .ok none => .fine
  | .ok (some problem) => .wrong problem problem
  | .error _ => .error rfl

/-- The parameter checks that a program brings do not tell a shape from one under new names. -/
def FunctionTable.Unaware (t : FunctionTable) (ρ : Renaming) (k : Nat) (h : Host) : Prop :=
  ∀ f ∈ t.functions, ∀ g, f.checkParam = some (.custom g) → ∀ (param : Value) (s : Shape),
    CheckedAlike ((ParameterCheck.custom g).run h param s) ((ParameterCheck.custom g).run h param (s.rename ρ k))

theorem ParameterCheck.run_rename {c : ParameterCheck} {param : Value} {s : Shape}
    (custom : ∀ g, c = .custom g → CheckedAlike (c.run h param s) (c.run h param (s.rename ρ k))) :
    CheckedAlike (c.run h param s) (c.run (h.rename ρ) param (s.rename ρ k)) := by
  have engine (same : c.run (h.rename ρ) param (s.rename ρ k) = c.run h param s) :
      CheckedAlike (c.run h param s) (c.run (h.rename ρ) param (s.rename ρ k)) := by
    rw [same]
    exact .refl _
  cases c with
  | custom g => exact custom g rfl
  | predicate | oneOf => exact engine rfl
  | ordinal | equal | pattern =>
    refine engine ?_
    unfold run answer
    simp only [checkOrdinal, checkEqual, checkPattern, Shape.declaredType_rename]
  | length =>
    refine engine ?_
    unfold run answer
    simp only [checkLength, Shape.declaredType_rename, Shape.kind_rename]

theorem missingModule_rename (parts : List (List Char)) : ∀ before,
    missingModule (h.rename ρ) before parts = missingModule h before parts := by
  induction parts with
  | nil => exact fun _ => rfl
  | cons part rest ih =>
    intro before
    rw [missingModule, missingModule]
    simp only [ih]
    rfl

theorem resolveParam_rename (callable : Bool) (param : Value) :
    resolveParam (h.rename ρ) callable param = resolveParam h callable param := by
  have modules (path module : String) : importModule (h.rename ρ) path module = importModule h path module := by
    unfold importModule
    rw [missingModule_rename]
    rfl
  have objects (path : String) : importObject (h.rename ρ) path = importObject h path := by
    unfold importObject
    simp only [modules]
  unfold resolveParam
  simp only [objects]

namespace Workshop
variable {w : Workshop}

/-- What shapes of the schema of a number are compiled with under new names. -/
def rename (ρ : Renaming) (k : Nat) (w : Workshop) : Workshop :=
  { w with host := w.host.rename ρ, table := w.table.rename (ρ k) }

theorem resolve_rename (plain : ∀ g, w.resolver ≠ some (.custom g)) (f : ConstraintFunction) (param : Value) :
    (w.rename ρ k).resolve (f.rename (ρ k)) param = w.resolve f param := by
  unfold resolve
  rcases hr : w.resolver with _ | _ | g
  · simp only [rename, hr]
  · simp only [rename, hr]
    exact resolveParam_rename f.callableParam param
  · exact (plain g hr).elim

theorem lookUp_rename (inj : Function.Injective (ρ k)) (name : String) (site : Site) :
    EndsAlike (ConstraintFunction.rename (ρ k)) (w.lookUp name site) ((w.rename ρ k).lookUp (ρ k name) site) := by
  unfold lookUp rename
  rw [FunctionTable.find?_rename inj]
  rcases w.table.find? name with _ | f
  · exact .error rfl
  · exact .ok f

/-- A workshop whose constraints can be renamed: the new names are different, no function of the program replaces
parameters, and none that checks them is aware of names. -/
structure Renamable (w : Workshop) (ρ : Renaming) (k : Nat) : Prop where
  inj : Function.Injective (ρ k)
  plain : ∀ g, w.resolver ≠ some (.custom g)
  unaware : w.table.Unaware ρ k w.host

theorem bindRule_rename (renamable : w.Renamable ρ k) (s : Shape) (site : Site) (rule : Rule) :
    EndsAlike (BoundRule.rename (ρ k)) (w.bindRule s site rule)
      ((w.rename ρ k).bindRule (s.rename ρ k) site (rule.rename (ρ k))) := by
  rw [bindRule_eq, bindRule_eq]
  refine (lookUp_rename renamable.inj rule.name site).bind fun f hf => ?_
  rw [Shape.kind_rename]
  change EndsAlike _ _ (if f.appliesTo.contains s.kind then _ else _)
  split
  · unfold bound
    have resolved : EndsAlike id (w.resolve f rule.param)
        ((w.rename ρ k).resolve (f.rename (ρ k)) (rule.rename (ρ k)).param) := by
      change EndsAlike id _ ((w.rename ρ k).resolve (f.rename (ρ k)) rule.param)
      rw [resolve_rename renamable.plain]
      exact .refl _
    refine resolved.bind fun param _ => ?_
    have same : (f.rename (ρ k)).checkParam = f.checkParam := rfl
    rw [same]
    rcases hc : f.checkParam with _ | c
    · exact .ok (⟨f, param⟩ : BoundRule)
    · have checked : CheckedAlike (c.run w.host param s) (c.run (w.host.rename ρ) param (s.rename ρ k)) := by
        refine ParameterCheck.run_rename ?_
        rintro g rfl
        exact renamable.unaware f (mem_of_lookUp hf) g hc param s
      change EndsAlike _ (c.run w.host param s >>= _) (c.run (w.host.rename ρ) param (s.rename ρ k) >>= _)
      revert checked
      generalize c.run w.host param s = before
      generalize c.run (w.host.rename ρ) param (s.rename ρ k) = after
      rintro (_ | _ | same)
      · exact .ok (⟨f, param⟩ : BoundRule)
      · exact .error rfl
      · exact .error same
  · exact .error rfl

theorem bindRules_rename (renamable : w.Renamable ρ k) (s : Shape) (site : Site) (existing : List BoundRule) :
    EndsAlike (List.map (BoundRule.rename (ρ k))) (w.bindRules s site existing)
      ((w.rename ρ k).bindRules (s.rename ρ k) site (existing.map (BoundRule.rename (ρ k)))) := by
  unfold bindRules
  rw [Shape.rules_rename]
  refine (EndsAlike.mapM fun rule _ => bindRule_rename renamable s site rule).bind fun bound _ => ?_
  dsimp only
  rw [← List.map_append]
  refine (BoundRule.checkConflicts_rename renamable.inj site (existing ++ bound) []).bind fun _ _ => ?_
  exact .ok (existing ++ bound)

theorem checkTarget_rename (target : Target) (site : Site) :
    (w.rename ρ k).checkTarget (target.rename ρ) site = w.checkTarget target site := by
  rcases target with s | v
  · rw [Target.rename]
    rfl
  · have schema (v : Value) : (((w.rename ρ k).host.schemaOf? v).isSome) = (w.host.schemaOf? v).isSome := by
      change ((w.host.rename ρ).schemaOf? v).isSome = _
      rw [Host.schemaOf?_rename, Option.isSome_map]
    have own (v : Value) : (w.rename ρ k).isTargetType v = w.isTargetType v := rfl
    rw [Target.rename]
    unfold checkTarget
    simp only [schema, own]

theorem isScalarClass_rename (target : Target) : (w.rename ρ k).isScalarClass (target.rename ρ) = w.isScalarClass target := by
  rcases target with s | v
  · rw [Target.rename]
    rfl
  · rw [Target.rename]
    unfold isScalarClass
    have own : (w.rename ρ k).isTargetType = w.isTargetType := rfl
    have host : (w.rename ρ k).host = w.host.rename ρ := rfl
    simp only [own, host, Host.schemaOf?_rename, Option.isNone_map]

mutual

/-- A shape under new names is compiled exactly when the shape is, and to the node under new names. -/
theorem compile_rename (renamable : w.Renamable ρ k) (site : Site) : ∀ s : Shape,
    EndsAlike (Node.rename ρ k) (w.compile site s) ((w.rename ρ k).compile site (s.rename ρ k))
  | .mk kind declared type inner keys target cases tag => by
    have bound := bindRules_rename renamable (.mk kind declared type inner keys target cases tag) site []
    have inside := compileInner_rename renamable site inner
    have outside := compileKeys_rename renamable site keys
    rw [Shape.rename] at bound ⊢
    rw [compile, compile]
    refine bound.bind fun rules _ => ?_
    have wrapped (wr : Wrapper) : EndsAlike (Node.rename ρ k)
        (w.compileInner site inner >>= fun n => w.compileKeys site keys >>= fun m => .ok (.wrapper wr rules (some n) m))
        ((w.rename ρ k).compileInner site (Shape.renameInner ρ k inner) >>= fun n =>
          (w.rename ρ k).compileKeys site (Shape.renameInner ρ k keys) >>= fun m =>
            .ok (.wrapper wr (rules.map (BoundRule.rename (ρ k))) (some n) m)) := by
      refine inside.bind fun n _ => outside.bind fun m _ => ?_
      have renamed := EndsAlike.ok (g := Node.rename ρ k) (.wrapper wr rules (some n) m)
      rwa [Node.rename, Node.renameInner_eq, Node.renameInner_eq] at renamed
    cases kind with
    | scalar =>
      refine (EndsAlike.refl (checkScalarType type site)).bind fun _ _ => ?_
      have renamed := EndsAlike.ok (g := Node.rename ρ k) (.scalar rules type)
      rwa [Node.rename] at renamed
    | optional => exact wrapped .optional
    | sequence => exact wrapped .sequence
    | mapping => exact wrapped .mapping
    | nested =>
      dsimp only
      rw [checkTarget_rename]
      refine (EndsAlike.refl (w.checkTarget target site)).bind fun _ _ => ?_
      have renamed := EndsAlike.ok (g := Node.rename ρ k) (.nested rules target)
      rwa [Node.rename] at renamed
    | enum =>
      rcases cases with _ | _ | ⟨entry, rest⟩
      · rw [Shape.renameChoice]
        exact .error rfl
      · rw [Shape.renameChoice, Shape.renameCases]
        exact .error rfl
      · have choice := compileCases_rename renamable site (entry :: rest) []
        obtain ⟨name, payload⟩ := entry
        rw [Shape.renameChoice, Shape.renameCases]
        rw [Shape.renameCases, Node.renameCases] at choice
        refine choice.bind fun all _ => ?_
        have renamed := EndsAlike.ok (g := Node.rename ρ k) (.variants rules all tag)
        rwa [Node.rename] at renamed

theorem compileInner_rename (renamable : w.Renamable ρ k) (site : Site) : ∀ s : Option Shape,
    EndsAlike (Node.rename ρ k) (w.compileInner site s) ((w.rename ρ k).compileInner site (Shape.renameInner ρ k s))
  | none => by
    rw [Shape.renameInner, compileInner, compileInner]
    have renamed := EndsAlike.ok (g := Node.rename ρ k) (.scalar [] .absent)
    rwa [Node.rename] at renamed
  | some s => by
    rw [Shape.renameInner, compileInner, compileInner]
    exact compile_rename renamable site s

theorem compileKeys_rename (renamable : w.Renamable ρ k) (site : Site) : ∀ s : Option Shape,
    EndsAlike (Option.map (Node.rename ρ k)) (w.compileKeys site s) ((w.rename ρ k).compileKeys site (Shape.renameInner ρ k s))
  | none => by
    rw [Shape.renameInner, compileKeys, compileKeys]
    exact .ok none
  | some s => by
    rw [Shape.renameInner, compileKeys, compileKeys]
    exact (compile_rename renamable site s).bind fun n _ => .ok (some n)

theorem compileCases_rename (renamable : w.Renamable ρ k) (site : Site) : ∀ (cases : List (Value × Payload)) (done : List (Value × Option Node)),
    EndsAlike (Node.renameCases ρ k) (w.compileCases site cases done)
      ((w.rename ρ k).compileCases site (Shape.renameCases ρ k cases) (Node.renameCases ρ k done))
  | [], done => by
    rw [Shape.renameCases, compileCases, compileCases]
    exact .ok done
  | (name, payload) :: rest, done => by
    rw [Shape.renameCases, compileCases, compileCases]
    refine (compilePayload_rename renamable { site with variant := some name } payload).bind fun n _ => ?_
    have later := compileCases_rename renamable site rest (Value.assign (.text name.str) n done)
    rwa [← Node.renameCases_assign] at later

theorem compilePayload_rename (renamable : w.Renamable ρ k) (site : Site) : ∀ payload : Payload,
    EndsAlike (Option.map (Node.rename ρ k)) (w.compilePayload site payload)
      ((w.rename ρ k).compilePayload site (payload.rename ρ k))
  | .shape s => by
    rw [Payload.rename, compilePayload, compilePayload]
    exact (compile_rename renamable site s).bind fun n _ => .ok (some n)
  | .target (.schema s) => by
    have renamed := EndsAlike.ok (g := Option.map (Node.rename ρ k)) (some (.nested [] (.schema s)))
    rw [Payload.rename]
    rw [Option.map_some, Node.rename] at renamed
    rw [Target.rename] at renamed ⊢
    exact renamed
  | .target (.value v) => by
    have scalar : (w.rename ρ k).isScalarClass ((Target.value v).rename ρ) = w.isScalarClass (.value v) :=
      isScalarClass_rename (.value v)
    have checked : (w.rename ρ k).checkTarget ((Target.value v).rename ρ) site = w.checkTarget (.value v) site :=
      checkTarget_rename (.value v) site
    rw [Target.rename] at scalar checked
    rw [Payload.rename, Target.rename]
    by_cases hv : v = .absent
    · subst hv
      exact .ok none
    · rw [compilePayload, compilePayload, scalar, checked]
      · split
        · have renamed := EndsAlike.ok (g := Option.map (Node.rename ρ k)) (some (.scalar [] v))
          rwa [Option.map_some, Node.rename] at renamed
        · refine (EndsAlike.refl (w.checkTarget (.value v) site)).bind fun _ _ => ?_
          have renamed := EndsAlike.ok (g := Option.map (Node.rename ρ k)) (some (.nested [] (.value v)))
          rwa [Option.map_some, Node.rename, Target.rename] at renamed
      · simpa using hv
      · simpa using hv

end

end Workshop
end Binding

/-! ### Declaring -/

/-- A declaration whose rules are given as rules. -/
inductive Declaration where
  | field (name : Value) (shape : ShapeSpelling) (rules : List Rule)
  | check (rules : List Rule)

namespace Declaration

def rename (ρ : Renaming) (k : Nat) : Declaration → Declaration
  | .field name shape rules => .field name (shape.rename ρ k) (rules.map (Rule.rename (ρ k)))
  | .check rules => .check (rules.map (Rule.rename (ρ k)))

def declare (h : Host) (t : FunctionTable) (b : SchemaBuilder) : Declaration → Except Fault SchemaBuilder
  | .field name shape rules => b.field h t name shape (rules.map .rule) []
  | .check rules => b.check h t (rules.map .rule) []

/-- A builder after declarations, and for each of them the class of the exception that refused it, if it was refused. -/
def declareAll (h : Host) (t : FunctionTable) : SchemaBuilder → List Declaration → SchemaBuilder × List (Option String)
  | b, [] => (b, [])
  | b, d :: rest => match d.declare h t b with
    | .ok b' => ((declareAll h t b' rest).1, none :: (declareAll h t b' rest).2)
    | .error e => ((declareAll h t b rest).1, some e.kind :: (declareAll h t b rest).2)

end Declaration

namespace SchemaBuilder

def rename (ρ : Renaming) (k : Nat) (b : SchemaBuilder) : SchemaBuilder :=
  { b with fields := Schema.renameFields ρ k b.fields, checks := b.checks.map (BoundRule.rename (ρ k)) }

section
variable {ρ : Renaming} {k : Nat} {b : SchemaBuilder} {h : Host} {t : FunctionTable}

theorem build_rename : (b.rename ρ k).build k = (b.build k).rename ρ := by
  rw [build, build, Schema.rename]
  rfl

variable (renamable : (b.workshop h t).Renamable ρ k)
include renamable

theorem placeRule_rename (site : Site) (s : Shape) (rule : Rule) :
    EndsAlike (Shape.rename ρ k) (placeRule site (b.workshop h t) s rule)
      (placeRule site ((b.workshop h t).rename ρ k) (s.rename ρ k) (rule.rename (ρ k))) := by
  unfold placeRule
  refine (Workshop.lookUp_rename renamable.inj rule.name site).bind fun f _ => ?_
  have placed : (s.rename ρ k).place (f.rename (ρ k)).appliesTo (rule.rename (ρ k))
      = (s.place f.appliesTo rule).map (Shape.rename ρ k) :=
    Shape.place_rename f.appliesTo rule s
  rw [placed, Shape.describe_rename, Shape.kind_rename]
  rcases s.place f.appliesTo rule with _ | s'
  · exact (EndsAlike.refl s.describe).bind fun _ _ => .error rfl
  · exact .ok s'

theorem fieldNode_rename (site : Site) (s : Shape) (rules : List Rule) :
    EndsAlike (Node.rename ρ k) (b.fieldNode h t site s rules)
      ((b.rename ρ k).fieldNode (h.rename ρ) (t.rename (ρ k)) site (s.rename ρ k) (rules.map (Rule.rename (ρ k)))) := by
  unfold fieldNode
  have placed : EndsAlike (Shape.rename ρ k) (rules.foldlM (placeRule site (b.workshop h t)) s)
      ((rules.map (Rule.rename (ρ k))).foldlM (placeRule site ((b.workshop h t).rename ρ k)) (s.rename ρ k)) :=
    EndsAlike.foldlM (fun rule _ s => placeRule_rename renamable site s rule) s
  exact placed.bind fun s' _ => Workshop.compile_rename renamable site s'

theorem field_rename (name : Value) (spelling : ShapeSpelling) (rules : List Rule) :
    EndsAlike (rename ρ k) (b.field h t name spelling (rules.map .rule) [])
      ((b.rename ρ k).field (h.rename ρ) (t.rename (ρ k)) name (spelling.rename ρ k)
        ((rules.map (Rule.rename (ρ k))).map .rule) []) := by
  have taken : ((b.rename ρ k).fields.any fun x => x.1.eq name) = b.fields.any fun x => x.1.eq name := by
    simp only [rename, Schema.renameFields_eq, List.any_map]
    rfl
  rw [field_eq, field_eq, Rule.ofSpellings_rules, Rule.ofSpellings_rules, Shape.ofSpelling_rename]
  change EndsAlike _ _ (if ((b.rename ρ k).fields.any fun x => x.1.eq name) then _ else _)
  rw [taken]
  split
  · exact .error rfl
  · rcases Shape.ofSpelling spelling with e | s
    · exact .error rfl
    · refine (fieldNode_rename renamable { schema := b.name, field := some name } s rules).map fun n => ?_
      simp only [rename, Schema.renameFields_eq, List.map_append]
      rfl

theorem check_rename (rules : List Rule) :
    EndsAlike (rename ρ k) (b.check h t (rules.map .rule) [])
      ((b.rename ρ k).check (h.rename ρ) (t.rename (ρ k)) ((rules.map (Rule.rename (ρ k))).map .rule) []) := by
  have bound := Workshop.bindRules_rename renamable (.nested (.value b.targetType) rules) { schema := b.name } b.checks
  rw [Shape.nested, Shape.rename] at bound
  unfold check
  rw [Rule.ofSpellings_rules, Rule.ofSpellings_rules]
  exact bound.bind fun checks _ => .ok { b with checks }

theorem compileShape_rename (spelling : ShapeSpelling) :
    EndsAlike (Node.rename ρ k) (b.compileShape h t spelling)
      ((b.rename ρ k).compileShape (h.rename ρ) (t.rename (ρ k)) (spelling.rename ρ k)) := by
  unfold compileShape
  rw [Shape.ofSpelling_rename]
  rcases Shape.ofSpelling spelling with e | s
  · exact .error rfl
  · exact Workshop.compile_rename renamable { schema := b.name } s

end
end SchemaBuilder

/-! ### Declaring one after the other -/

section Declarations
variable {ρ : Renaming} {k : Nat} {b b' : SchemaBuilder} {h : Host} {t : FunctionTable}

namespace Declaration

theorem declare_keeps {d : Declaration} (declared : d.declare h t b = .ok b') : b'.workshop h t = b.workshop h t := by
  cases d with
  | field name shape rules =>
    obtain ⟨-, site, s, n, -, rfl⟩ := SchemaBuilder.field_cases declared
    rfl
  | check rules =>
    obtain ⟨rules, site, checks, -, rfl⟩ := SchemaBuilder.check_cases declared
    rfl

theorem declare_rename (renamable : (b.workshop h t).Renamable ρ k) (d : Declaration) :
    EndsAlike (SchemaBuilder.rename ρ k) (d.declare h t b)
      ((d.rename ρ k).declare (h.rename ρ) (t.rename (ρ k)) (b.rename ρ k)) := by
  cases d with
  | field name shape rules => exact SchemaBuilder.field_rename renamable name shape rules
  | check rules => exact SchemaBuilder.check_rename renamable rules

/-- Declarations under new names leave the builder under new names, and the same ones are refused with exceptions of the
same classes. -/
theorem declareAll_rename (ds : List Declaration) : ∀ {b : SchemaBuilder}, (b.workshop h t).Renamable ρ k →
    declareAll (h.rename ρ) (t.rename (ρ k)) (b.rename ρ k) (ds.map (Declaration.rename ρ k))
      = ((declareAll h t b ds).1.rename ρ k, (declareAll h t b ds).2) := by
  induction ds with
  | nil => exact fun _ => rfl
  | cons d rest ih =>
    intro b renamable
    have here := d.declare_rename renamable
    rw [List.map_cons, declareAll, declareAll]
    rcases hd : d.declare h t b with e | b₁
    · rw [hd] at here
      rcases hd' : (d.rename ρ k).declare (h.rename ρ) (t.rename (ρ k)) (b.rename ρ k) with e' | b₁'
      · rw [hd'] at here
        cases here with
        | error same =>
          dsimp only
          rw [ih renamable, same]
      · rw [hd'] at here
        cases here
    · rw [hd] at here
      rcases hd' : (d.rename ρ k).declare (h.rename ρ) (t.rename (ρ k)) (b.rename ρ k) with e' | b₁'
      · rw [hd'] at here
        cases here
      · rw [hd'] at here
        cases here
        dsimp only
        rw [ih (declare_keeps hd ▸ renamable)]

end Declaration

/-- Names of constraints mean nothing to the library. With a table whose functions have other names and are otherwise the
same, none of which tells a shape from the shape under new names when it checks a parameter, a builder takes declarations
under the new names exactly when it takes them under the old ones, and refuses the others with exceptions of the same
classes; its shapes and the schema that it builds report of every value the same violations, but for the names, and but
for what a function call found itself. -/
theorem SchemaBuilder.alike_under_new_names (ρ : Renaming) (k : Nat) (inj : Function.Injective (ρ k)) (h : Host)
    (t : FunctionTable) (unaware : t.Unaware ρ k h) (b : SchemaBuilder) (plain : ∀ g, b.resolver ≠ some (.custom g))
    (ds : List Declaration) :
    (Declaration.declareAll (h.rename ρ) (t.rename (ρ k)) (b.rename ρ k) (ds.map (Declaration.rename ρ k))).2
        = (Declaration.declareAll h t b ds).2 ∧
      (∀ v, Reported ρ h (((Declaration.declareAll h t b ds).1.build k).validate h v)
        (((Declaration.declareAll (h.rename ρ) (t.rename (ρ k)) (b.rename ρ k) (ds.map (Declaration.rename ρ k))).1.build k).validate
          (h.rename ρ) v)) ∧
      ∀ spelling, EndsAlike (Node.rename ρ k) (b.compileShape h t spelling)
          ((b.rename ρ k).compileShape (h.rename ρ) (t.rename (ρ k)) (spelling.rename ρ k)) ∧
        ∀ n v, b.compileShape h t spelling = .ok n →
          Reported ρ h (n.validate h v) ((n.rename ρ k).validate (h.rename ρ) v) := by
  have renamable : (b.workshop h t).Renamable ρ k := ⟨inj, plain, unaware⟩
  rw [Declaration.declareAll_rename ds renamable]
  refine ⟨rfl, fun v => ?_, fun spelling => ⟨compileShape_rename renamable spelling, fun n v _ => n.validate_rename k v⟩⟩
  rw [build_rename]
  exact Schema.validate_rename _ v

/-! ### Two names that change places -/

def swapNames (a b name : String) : String := if name = a then b else if name = b then a else name

theorem swapNames_injective (a b : String) : Function.Injective (swapNames a b) := by
  have twice (name : String) : swapNames a b (swapNames a b name) = name := by
    unfold swapNames
    grind
  exact Function.LeftInverse.injective twice

/-- A program whose functions say whether what they are given first is an even number. -/
def Host.ofEven : Host :=
  { Host.bare with call := fun _ args => .ok (.value (.bool ((args.head?.bind Value.asInt?).any (· % 2 == 0)))) }

/-- Lower bounds can be called what upper bounds are called, and upper bounds what lower bounds are called. -/
theorem SchemaBuilder.alike_under_new_names_of_swap :
    let even : Value := .function ⟨"even", some "even", "", "function"⟩
    let t : FunctionTable := ⟨"checks",
      FunctionTable.builtins ++ [{ name := "odd", check := .custom even, checkParam := some (.custom even) }], false⟩
    let ds : List Declaration := [
      .field (.text "x") (.value (.cls (.builtin .int) [])) [⟨"min", .int 1⟩, ⟨"max", .int 5⟩],
      .field (.text "y") (.value .absent) [⟨"odd", .int 2⟩],
      .field (.text "y") (.value .absent) [⟨"even", .int 1⟩],
      .field (.text "y") (.value .absent) [⟨"min", .int 3⟩, ⟨"max", .int 1⟩]]
    let refused := [none, some "ConstraintTypeError", some "UnknownConstraintError", some "ConflictingConstraintError"]
    (Declaration.declareAll .ofEven t { name := .text "s" } ds).2 = refused ∧
      (Declaration.declareAll (Host.ofEven.rename fun _ => swapNames "min" "max") (t.rename (swapNames "min" "max"))
        { name := .text "s" } (ds.map (Declaration.rename (fun _ => swapNames "min" "max") 0))).2 = refused := by
  intro even t ds refused
  have unaware : t.Unaware (fun _ => swapNames "min" "max") 0 .ofEven := by
    intro f hf g hg param s
    rcases List.mem_append.mp hf with hf | hf
    · exact (FunctionTable.checkParam_builtins hf g hg).elim
    · obtain rfl := List.mem_singleton.mp hf
      cases hg
      exact .refl _
  have known : (Declaration.declareAll .ofEven t { name := .text "s" } ds).2 = refused := by decide +kernel
  have alike := SchemaBuilder.alike_under_new_names (fun _ => swapNames "min" "max") 0 (swapNames_injective "min" "max") .ofEven t
    unaware { name := .text "s" } nofun ds
  exact ⟨known, alike.1.trans known⟩

/-! ### Functions that know names -/

/-- A program whose functions know a constraint by its name: a check of parameters that wants a rule named `first` on the
shape, and a constraint that finds what a rule named `first` would find. -/
def Host.ofNames : Host :=
  { Host.bare with
    call := fun f args => .ok <|
      if f.name = "beside" then .value (.bool !((args.getLast?.elim [] fun shape => (shape.part "rules").items).any fun r =>
        (r.part "name").asText? == some "first"))
      else if f.name = "within" then .report (.of .absent [.report "first" [] []])
      else .value (.bool false) }

/-- Functions of a program can tell old names from new ones. A check of parameters sees the rules of the shape, so what is
taken under the old names can be refused under the new ones; and what a function finds itself is reported under the old
names beside what the renamed constraints find. -/
theorem SchemaBuilder.names_noticed :
    let named (name : String) : Value := .function ⟨name, some name, "", "function"⟩
    let t : FunctionTable := ⟨"checks", [{ name := "first", check := .custom (named "never") },
      { name := "wary", check := .custom (named "never"), checkParam := some (.custom (named "beside")) },
      { name := "within", check := .custom (named "within") }], false⟩
    let σ := swapNames "first" "second"
    let b : SchemaBuilder := { name := .text "s" }
    let ds : List Declaration := [.field (.text "x") (.value .absent) [⟨"first", .absent⟩, ⟨"wary", .absent⟩]]
    let checked : List Declaration := [.check [⟨"first", .absent⟩, ⟨"within", .absent⟩]]
    let before (ds : List Declaration) := Declaration.declareAll .ofNames t b ds
    let after (ds : List Declaration) := Declaration.declareAll (Host.ofNames.rename fun _ => σ) (t.rename σ) b
      (ds.map (Declaration.rename (fun _ => σ) 0))
    Function.Injective σ ∧ (before ds).2 = [none] ∧ (after ds).2 = [some "ConstraintTypeError"] ∧
      (((before checked).1.build 0).validate .ofNames (.int 1)).map (fun report => report.violations.map Violation.kind)
        = .ok ["first", "first"] ∧
      (((after checked).1.build 0).validate (Host.ofNames.rename fun _ => σ) (.int 1)).map
        (fun report => report.violations.map Violation.kind) = .ok ["second", "first"] := by
  intro named t σ b ds checked before after
  refine ⟨swapNames_injective _ _, by decide +kernel, by decide +kernel, ?_, ?_⟩
  · rw [Schema.validate_eq_walk]
    rfl
  · rw [Schema.validate_eq_walk]
    rfl

end Declarations

end Conform
