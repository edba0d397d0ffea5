import Conform.Fault

/-!
Kinds of values, and declared rules. A rule names a constraint and gives its parameter; it may be written
as a rule, as a pair, as a bare name, or as a mapping of names to parameters.
-/

namespace Conform

/-- The kinds of values that validation tells apart. -/
inductive FieldKind where
  | scalar | optional | sequence | mapping | nested | enum
  deriving Inhabited, Repr, DecidableEq

namespace FieldKind

def name : FieldKind → String
  | .scalar => "scalar" | .optional => "optional" | .sequence => "sequence"
  | .mapping => "mapping" | .nested => "nested" | .enum => "enum"

def all : List FieldKind := [.scalar, .optional, .sequence, .mapping, .nested, .enum]

def present : List FieldKind := [.scalar, .sequence, .mapping, .nested, .enum]

end FieldKind

/-- A declared constraint: the name of its function and a parameter. -/
structure Rule where
  name : String
  param : Value
  deriving Inhabited, Repr

/-- A rule in one of its spellings. -/
inductive RuleSpelling where
  | rule (r : Rule)
  | value (v : Value)
  deriving Inhabited, Repr

namespace Rule

def text (r : Rule) : String := r.name ++ "=" ++ r.param.repr

def ofValue? : Value → Option Rule
  | .record r attributes =>
    if r.cls = .rule then do
      let name ← (attributes.lookup "name").bind Value.asText?
      return ⟨name, (attributes.lookup "param").getD .absent⟩
    else none
  | _ => none

/-- The rules that one spelling declares. -/
def ofSpelling : RuleSpelling → Except Fault (List Rule)
  | .rule r => .ok [r]
  | .value v =>
    match v.asText? with
    | some s => .ok [⟨s, .absent⟩]
    | none =>
      match v with
      | .tuple [name, param] => match name.asText? with
        | some s => .ok [⟨s, param⟩]
        | none => .error (.notARule v.repr)
      | .mapping _ entries => .ok (entries.map fun (k, p) => ⟨k.str, p⟩)
      | v => match ofValue? v with
        | some r => .ok [r]
        | none => .error (.notARule v.repr)

/-- The rules that several spellings declare, in order, followed by the named ones. -/
def ofSpellings (spellings : List RuleSpelling) (named : List (String × Value)) : Except Fault (List Rule) := do
  let rules ← spellings.mapM ofSpelling
  return rules.flatten ++ named.map fun (n, p) => ⟨n, p⟩

end Rule
end Conform
