import Conform.Schema.Basic

/-!
Schemas and nodes as mappings, and nodes in a few words.
-/

namespace Conform

/-- The name that a class reports of itself; other values have none. -/
def Value.requireName (v : Value) : Except Fault String :=
  match v.declaredName? with
  | some n => .ok n
  | none => .error (.lacking v "__name__")

/-- Texts joined by a separator; items that are no text are refused. -/
def joinTexts (separator : String) (items : List Value) : Except Fault String := do
  let shown ← items.zipIdx.mapM fun (v, i) => match v.asText? with
    | some s => .ok s
    | none => .error (.joinItem i v.fullName)
  return separator.intercalate shown

/-- What a target is called: its name, else the name of its class, else its text. -/
def Target.called (t : Target) : Value :=
  match t.nameAttribute? with
  | some n => if n.truthy then n else .text (fallback t)
  | none => .text (fallback t)
where
  fallback : Target → String
    | .schema s => s.text
    | .value v => v.declaredName?.getD v.str

namespace Node

/-- A node in a few words. -/
def describe : Node → Except Fault Value
  | .scalar _ type => if type.truthy then type.requireName.map .text else .ok (.text "any")
  | .wrapper w _ none _ => .ok (.text (w.kind.name ++ "[any]"))
  | .wrapper w _ (some inner) _ => do
    let d ← inner.describe
    return .text (w.kind.name ++ "[" ++ d.str ++ "]")
  | .nested _ target => .ok target.called
  | .variants _ cases _ => (joinTexts " | " (cases.map Prod.fst)).map .text

mutual

/-- A node as a mapping; what it lacks is left out. -/
def entries : Node → Except Fault (List (Value × Value))
  | .scalar rules type => do
    let type ← match type with
      | .absent => pure []
      | type => do pure [(.text "type", .text (← type.requireName))]
    return start .scalar ++ type ++ ruleEntries rules
  | .wrapper w rules inner keys => do
    return start w.kind ++ ruleEntries rules ++ (← childEntries "inner" inner) ++ (← childEntries "keys" keys)
  | .nested rules target => .ok (start .nested ++ ruleEntries rules ++ [(.text "schema", target.called)])
  | .variants rules cases _ => do
    return start .enum ++ ruleEntries rules ++ [(.text "variants", .dict (← caseEntries cases))]
where
  start (k : FieldKind) : List (Value × Value) := [(.text "kind", .text k.name)]
  ruleEntries (rules : List BoundRule) : List (Value × Value) :=
    if rules.isEmpty then [] else [(.text "rules", .list (rules.map BoundRule.toValue))]

/-- The entry of a child, if there is one. -/
def childEntries (key : String) : Option Node → Except Fault (List (Value × Value))
  | none => .ok []
  | some node => do return [(.text key, .dict (← node.entries))]

/-- The cases of a choice by name; a case without a payload is absent. -/
def caseEntries : List (Value × Option Node) → Except Fault (List (Value × Value))
  | [] => .ok []
  | (name, none) :: rest => do return (name, .absent) :: (← caseEntries rest)
  | (name, some node) :: rest => do return (name, .dict (← node.entries)) :: (← caseEntries rest)

end

def toValue (n : Node) : Except Fault Value := n.entries.map .dict

end Node

def Schema.toValue (s : Schema) : Except Fault Value := do
  let fields ← s.fields.mapM fun (name, node) => do return .dict ((.text "name", name) :: (← node.entries))
  return .dict ([(.text "name", s.name), (.text "fields", .list fields)]
    ++ (if s.checks.isEmpty then [] else [(.text "checks", .list (s.checks.map BoundRule.toValue))])
    ++ (if s.description.truthy then [(.text "description", s.description)] else []))

end Conform
