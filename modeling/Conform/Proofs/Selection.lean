import Conform.Proofs.Replacing

/-!
Schemas with some of their rules. A choice says of every rule of a node or a schema, by its place, whether it
is kept, and what is kept is the same tree with shorter lists of rules. Leaving rules out changes the
rules and the checks of every survey, and nothing else (`Node.survey_keep`).
-/

namespace Conform

/-- A rule of the level at hand, by its position, or a check of the schema at hand. -/
inductive RulePlace where
  | rule (position : Nat)
  | check (position : Nat)
  deriving Repr, DecidableEq

/-- Which rules are kept, by the turns that lead to their level and their place there. -/
abbrev Choice := List Turn → RulePlace → Bool

namespace Choice

/-- The choice as it is for a part. -/
def into (c : Choice) (turn : Turn) : Choice := fun turns => c (turn :: turns)

/-- Which rules of the level at hand are kept. -/
def rule (c : Choice) (position : Nat) : Bool := c [] (.rule position)

/-- Which checks of the schema at hand are kept. -/
def check (c : Choice) (position : Nat) : Bool := c [] (.check position)

end Choice

/-- The rules that are kept, in order. -/
def keptRules (keep : Nat → Bool) (rules : List BoundRule) : List BoundRule :=
  (rules.zipIdx.filter fun (_, i) => keep i).map Prod.fst

mutual

/-- A node with the rules that are kept, at every level. -/
def Node.keep (c : Choice) : Node → Node
  | .scalar rules type => .scalar (keptRules c.rule rules) type
  | .wrapper w rules inner keys =>
    .wrapper w (keptRules c.rule rules) (Node.keepInner (c.into .inner) inner) (Node.keepInner (c.into .keys) keys)
  | .nested rules target => .nested (keptRules c.rule rules) (target.keep c)
  | .variants rules cases tag => .variants (keptRules c.rule rules) (Node.keepCases c 0 cases) tag

/-- A node that may be missing, with the rules that are kept. -/
def Node.keepInner (c : Choice) : Option Node → Option Node
  | none => none
  | some node => some (node.keep c)

/-- Cases with the rules that are kept; the first has the given position. -/
def Node.keepCases (c : Choice) (position : Nat) : List (Value × Option Node) → List (Value × Option Node)
  | [] => []
  | (name, node) :: rest =>
    (name, Node.keepInner (c.into (.case position)) node) :: Node.keepCases c (position + 1) rest

/-- A target with the rules that are kept; a class stays what it is. -/
def Target.keep (c : Choice) : Target → Target
  | .schema s => .schema (s.keep c)
  | .value v => .value v

/-- A schema with the rules and the checks that are kept. -/
def Schema.keep (c : Choice) : Schema → Schema
  | .mk serial name fields checks targetType description =>
    .mk serial name (Schema.keepFields c 0 fields) (keptRules c.check checks) targetType description

/-- Fields with the rules that are kept; the first has the given position. -/
def Schema.keepFields (c : Choice) (position : Nat) : List (Value × Node) → List (Value × Node)
  | [] => []
  | (name, node) :: rest => (name, node.keep (c.into (.field position))) :: Schema.keepFields c (position + 1) rest

end

/-- Which rules are kept in the schemas that classes and schema objects stand for. -/
structure Selection where
  classes : DeclaredClass → Choice
  objects : Nat → Choice

/-- A program whose classes and schema objects have schemas with the rules that are kept. -/
def Host.keep (K : Selection) (h : Host) : Host :=
  { h with
    classSchema := fun c => (h.classSchema c).map (Schema.keep (K.classes c))
    schemaObject := fun n => (h.schemaObject n).map (Schema.keep (K.objects n)) }

namespace Selection

/-- Which rules are kept in the schema that a value stands for. -/
def of (K : Selection) : Value → Choice
  | .cls (.declared c) _ | .object c _ _ _ => K.classes c
  | .record r _ => K.objects r.serial
  | _ => fun _ _ => true

/-- Which rules are kept in the schema of a target, where a schema goes by the choice of its node. -/
def along (K : Selection) (c : Choice) : Target → Choice
  | .schema _ => c
  | .value v => K.of v

/-- Which rules are kept after a node: a structure goes on with its schema. -/
def below (K : Selection) (c : Choice) : Node → Choice
  | .nested _ target => K.along c target
  | _ => c

end Selection

/-! ### What stays -/

section Kept
variable {h : Host} {K : Selection} {c : Choice}

theorem Host.schemaOf?_keep (v : Value) : (h.keep K).schemaOf? v = (h.schemaOf? v).map (Schema.keep (K.of v)) := by
  unfold Host.schemaOf? Host.keep Selection.of
  split
  · rfl
  · rfl
  · split <;> rfl
  · rfl

theorem Host.targetSchema?_keep (target : Target) :
    (h.keep K).targetSchema? (target.keep c) = (h.targetSchema? target).map (Schema.keep (K.along c target)) := by
  cases target with
  | schema s => simp only [Target.keep, Host.targetSchema?, Selection.along, Option.map_some]
  | value v => simpa only [Target.keep, Host.targetSchema?, Selection.along] using Host.schemaOf?_keep v

theorem Host.requireSchema_keep (target : Target) :
    (h.keep K).requireSchema (target.keep c) = (h.requireSchema target).map (Schema.keep (K.along c target)) := by
  unfold Host.requireSchema
  rw [Host.targetSchema?_keep]
  cases target with
  | schema s => rfl
  | value v => cases h.targetSchema? (.value v) <;> simp [Target.keep, Except.map]

@[simp] theorem Schema.name_keep (s : Schema) : (s.keep c).name = s.name := by
  cases s
  simp only [Schema.keep, Schema.name]

@[simp] theorem Schema.targetType_keep (s : Schema) : (s.keep c).targetType = s.targetType := by
  cases s
  simp only [Schema.keep, Schema.targetType]

@[simp] theorem Schema.fields_keep (s : Schema) : (s.keep c).fields = Schema.keepFields c 0 s.fields := by
  cases s
  simp only [Schema.keep, Schema.fields]

@[simp] theorem Schema.checks_keep (s : Schema) : (s.keep c).checks = keptRules c.check s.checks := by
  cases s
  simp only [Schema.keep, Schema.checks]

theorem Node.keepInner_eq (node : Option Node) : Node.keepInner c node = node.map (Node.keep c) := by
  cases node <;> rw [Node.keepInner] <;> rfl

theorem Node.keepCases_eq (position : Nat) (cases : List (Value × Option Node)) :
    Node.keepCases c position cases
      = Value.reassign (fun i => Option.map (Node.keep (c.into (.case (position + i))))) cases := by
  induction cases generalizing position with
  | nil =>
    rw [Node.keepCases]
    rfl
  | cons case rest ih =>
    obtain ⟨name, node⟩ := case
    simp only [Node.keepCases, Value.reassign_cons, ih, Node.keepInner_eq, Nat.add_assoc, Nat.add_comm 1, Nat.add_zero]

theorem Schema.keepFields_eq (position : Nat) (fields : List (Value × Node)) :
    Schema.keepFields c position fields
      = Value.reassign (fun i => Node.keep (c.into (.field (position + i)))) fields := by
  induction fields generalizing position with
  | nil =>
    rw [Schema.keepFields]
    rfl
  | cons field rest ih =>
    obtain ⟨name, node⟩ := field
    simp only [Schema.keepFields, Value.reassign_cons, ih, Nat.add_assoc, Nat.add_comm 1, Nat.add_zero]

end Kept

/-! ### Surveys -/

/-- A branch with the rules that are kept. -/
def Branch.keep (c : Choice) (b : Branch) : Branch := { b with node := b.node.keep (c.into b.turn) }

/-- A survey with the rules that are kept: its own by one choice, what comes after by another. -/
def Survey.keep (c below : Choice) (s : Survey) : Survey :=
  { s with
    rules := keptRules c.rule s.rules
    branches := s.branches.map (Branch.keep below)
    checks := keptRules below.check s.checks }

@[simp] theorem keptRules_nil (keep : Nat → Bool) : keptRules keep [] = [] := rfl

/-- Leaving rules out as a replacement. -/
def Replacement.keep (c below : Choice) : Replacement where
  rules := keptRules c.rule
  checks := keptRules below.check
  node := fun turn => Node.keep (below.into turn)
  rules_nil := keptRules_nil _
  checks_nil := keptRules_nil _

theorem Schema.of_keep (c d : Choice) (s : Schema) : (Replacement.keep d c).OfSchema s (s.keep c) where
  name := s.name_keep
  targetType := s.targetType_keep
  fields := by
    simp only [fields_keep, keepFields_eq, Nat.zero_add]
    rfl
  checks := s.checks_keep

/-- The survey by a schema with the rules that are kept. -/
theorem Schema.survey_keep (c d : Choice) (s : Schema) (v : Value) :
    (s.keep c).survey v = (s.survey v).keep d c := (s.of_keep c d).survey_eq

theorem Node.of_keep (h : Host) (K : Selection) (c : Choice) (node : Node) :
    (Replacement.keep c (K.below c node)).Of h (h.keep K) node (node.keep c) := by
  cases node with
  | scalar rules type =>
    rw [Node.keep]
    exact .scalar rules type
  | wrapper w rules inner keys =>
    rw [Node.keep, Node.keepInner_eq, Node.keepInner_eq]
    exact .wrapper w rules inner keys
  | nested rules target =>
    rw [Node.keep]
    exact .nested rules (Host.requireSchema_keep target) fun s _ => s.of_keep _ c
  | variants rules cases tag =>
    simp only [Node.keep, Node.keepCases_eq, Nat.zero_add]
    exact .variants rules cases tag

/-- Leaving rules out leaves them out of every survey, and changes nothing else. -/
theorem Node.survey_keep (h : Host) (K : Selection) (c : Choice) (node : Node) (v : Value) :
    (node.keep c).survey (h.keep K) v = (node.survey h v).map (Survey.keep c (K.below c node)) :=
  (node.of_keep h K c).survey_eq fun _ => rfl

end Conform
