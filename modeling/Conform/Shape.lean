import Conform.Schema.Description

/-!
Shapes: declarations of what a field holds, before they are compiled. A shape has a kind and rules for its
own level, and what its kind needs: the class of a scalar, the shape inside a wrapper and of a mapping's
keys, the target of a structure, or the cases and the tag of a choice. Only what belongs to the kind is
read.
-/

namespace Conform

mutual

/-- One declared level of a field. -/
inductive Shape where
  | mk (kind : FieldKind) (rules : List Rule) (type : Value) (inner keys : Option Shape) (target : Target)
      (cases : Option (List (Value × Payload))) (tag : Value)

/-- What a variant carries: a shape, or a structure; nothing when its target is absent. -/
inductive Payload where
  | shape (s : Shape)
  | target (t : Target)

end

/-- Something that may stand for a shape. -/
inductive ShapeSpelling where
  | shape (s : Shape)
  | value (v : Value)

namespace Shape

def kind : Shape → FieldKind
  | .mk k .. => k

/-- The rules of a shape's own level. -/
def rules : Shape → List Rule
  | .mk _ rules .. => rules

/-- The class of a scalar shape. -/
def type : Shape → Value
  | .mk _ _ t .. => t

/-- The shape inside a wrapper. -/
def inner : Shape → Option Shape
  | .mk _ _ _ inner .. => inner

/-- The shape of a mapping's keys. -/
def keys : Shape → Option Shape
  | .mk _ _ _ _ keys .. => keys

def target : Shape → Target
  | .mk _ _ _ _ _ t .. => t

def cases : Shape → Option (List (Value × Payload))
  | .mk _ _ _ _ _ _ cs _ => cs

/-- How the active case of a choice is found. -/
def tag : Shape → Value
  | .mk _ _ _ _ _ _ _ tag => tag

/-- A shape of a kind with nothing but rules. -/
def plain (kind : FieldKind) (rules : List Rule) : Shape :=
  .mk kind rules .absent none none (.value .absent) none .absent

def scalar (type : Value) (rules : List Rule) : Shape :=
  .mk .scalar rules type none none (.value .absent) none .absent

/-- A value that may be absent, a sequence, or a mapping. -/
def wrapper (w : Wrapper) (inner keys : Option Shape) (rules : List Rule) : Shape :=
  .mk w.kind rules .absent inner keys (.value .absent) none .absent

/-- A structure with a schema of its own. -/
def nested (target : Target) (rules : List Rule) : Shape :=
  .mk .nested rules .absent none none target none .absent

def variants (cases : List (Value × Payload)) (tag : Value) (rules : List Rule) : Shape :=
  .mk .enum rules .absent none none (.value .absent) (some cases) tag

/-- A shape from one of its spellings: nothing stands for any scalar, and a class for its scalar. -/
def ofSpelling : ShapeSpelling → Except Fault Shape
  | .shape s => .ok s
  | .value .absent => .ok (scalar .absent [])
  | .value (.cls c attributes) => .ok (scalar (.cls c attributes) [])
  | .value v => .error (.notAShape v.repr)

/-- The shape with more rules at its own level. -/
def withRules (s : Shape) (more : List Rule) : Shape :=
  .mk s.kind (s.rules ++ more) s.type s.inner s.keys s.target s.cases s.tag

/-- The shape with another shape inside. -/
def withInner (s : Shape) (inner : Shape) : Shape :=
  .mk s.kind s.rules s.type (some inner) s.keys s.target s.cases s.tag

/-- Whether the shape, or a shape inside it or of its keys, has one of some kinds. -/
def contains (kinds : List FieldKind) : Shape → Bool
  | .mk kind _ _ inner keys _ _ _ =>
    kinds.contains kind
      || (match inner with | some s => s.contains kinds | none => false)
      || (match keys with | some s => s.contains kinds | none => false)

mutual

/-- Whether the shape, or some shape below it, has rules. -/
def hasRules : Shape → Bool
  | .mk _ rules _ inner keys _ cases _ =>
    !rules.isEmpty
      || (match inner with | some s => s.hasRules | none => false)
      || (match keys with | some s => s.hasRules | none => false)
      || (match cases with | some cs => casesHaveRules cs | none => false)

/-- Whether the shape of some case has rules. -/
def casesHaveRules : List (Value × Payload) → Bool
  | [] => false
  | (_, .shape s) :: rest => s.hasRules || casesHaveRules rest
  | (_, .target _) :: rest => casesHaveRules rest

end

/-- A shape in a few words. -/
def describe : Shape → Except Fault String
  | .mk kind _ type inner _ target cases _ =>
    match kind with
    | .scalar => if type.truthy then type.requireName else .ok "scalar"
    | .nested => .ok ("nested " ++ (match target.nameAttribute? with
      | some n => n.str
      | none => match target with
        | .schema s => s.text
        | .value v => v.declaredName?.getD v.str))
    | .enum => (joinTexts ", " ((cases.getD []).map Prod.fst)).map ("one of " ++ ·)
    | _ => match inner with
      | none => .ok (kind.name ++ " of scalar")
      | some s => s.describe.map fun d => kind.name ++ " of " ++ d

end Shape

instance : Inhabited Shape := ⟨.plain .scalar []⟩

end Conform
