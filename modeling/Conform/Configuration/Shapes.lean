import Conform.Configuration.Names

/-!
Shapes in configurations. A text names a kind or a class of scalars; a mapping gives a kind and what the
kind needs. A structure is named by its schema, which must be known.
-/

namespace Conform
namespace Configuration

/-- The schemas that a configuration can refer to, by name. -/
abbrev KnownSchemas := List (Value × Schema)

def knownSchema (known : KnownSchemas) (context : Context) (name : Value) : Except Fault Schema := do
  name.requireKey
  match Value.lookup? name known with
  | some s => return s
  | none => throw (refuse (.unknownSchema name) (context.set "reference" name))

/-- The schema that a variant names, if it names one. -/
def variantSchema? (known : KnownSchemas) (payload : Value) : Option Schema :=
  match payload.asText? with
  | some _ => Value.lookup? payload known
  | none => none

/-- What a wrapper contains: its `items`, else what is `inner`, else its `type`. -/
def contents (entries : List (Value × Value)) : Value :=
  match Value.lookup? (.text "items") entries with
  | some v => v
  | none => match Value.lookup? (.text "inner") entries with
    | some v => v
    | none => setting entries "type"

theorem depth_contents_le (entries : List (Value × Value)) :
    (contents entries).depth ≤ Value.depthEntries entries := by
  unfold contents
  split
  · next h => obtain ⟨_, hm⟩ := Value.lookup?_mem h; exact (Value.depth_le_depthEntries hm).2
  · split
    · next h => obtain ⟨_, hm⟩ := Value.lookup?_mem h; exact (Value.depth_le_depthEntries hm).2
    · exact depth_setting_le ..

/-- The name of the kind that a shape gives, in lower case. -/
def kindName (entries : List (Value × Value)) : String :=
  match Value.lookup? (.text "kind") entries with
  | some v => lowerText v.str
  | none => "scalar"

mutual

def shape (known : KnownSchemas) (context : Context) (config : Value) : Except Fault Shape :=
  match config with
  | .absent => .ok (.scalar .absent [])
  | .mapping _ entries =>
    match kindNames.lookup (kindName entries) with
    | some kind => shapeOfKind known context kind entries
    | none =>
      .error (refuse (.invalidKind (kindName entries)) (context.set "kind" (.text (kindName entries))))
  | config =>
    match _ht : config.asText? with
    | none => .error (refuse (.invalidShape config) context)
    | some name => match kindNamed? name with
      | some kind => shapeOfKind known context kind []
      | none => (scalarType context config).map fun t => .scalar t []
termination_by (config.depth, 0)
decreasing_by
  · simp only [Prod.lex_def, Value.depth]; omega
  · have := Value.depth_pos_of_asText _ht
    simp only [Prod.lex_def, Value.depthEntries]; omega

def shapeOfKind (known : KnownSchemas) (context : Context) (kind : FieldKind)
    (entries : List (Value × Value)) : Except Fault Shape := do
  let rules ← declaredRules context (setting entries "rules")
  match kind with
  | .scalar => return .scalar (← scalarType context (setting entries "type")) rules
  | .optional =>
    have := depth_contents_le entries
    return .wrapper .optional (some (← shape known context (contents entries))) none rules
  | .sequence =>
    have := depth_contents_le entries
    return .wrapper .sequence (some (← shape known context (contents entries))) none rules
  | .mapping =>
    have := depth_setting_le entries "values"
    have := depth_setting_le entries "keys"
    let inner ← shape known context (setting entries "values")
    let keys ← if (setting entries "keys").isAbsent then pure none
      else (shape known context (setting entries "keys")).map some
    return .wrapper .mapping (some inner) keys rules
  | .nested => return .nested (.schema (← knownSchema known context (setting entries "schema"))) rules
  | .enum =>
    have hle := depth_setting_le entries "variants"
    match hv : setting entries "variants" with
    | .mapping _ (entry :: cases) =>
      have : Value.depthEntries (entry :: cases) < Value.depthEntries entries := by
        rw [hv] at hle; simp only [Value.depth] at hle; omega
      return .variants (← shapeCases known context (entry :: cases) []) (setting entries "tag") rules
    | _ => throw (refuse .noVariants context)
termination_by (Value.depthEntries entries, 1)
decreasing_by
  all_goals
    simp_wf
    simp only [Prod.lex_def]
    omega

/-- The cases of a choice, after those that were read; names are read as text, and cases of one name share
a place. -/
def shapeCases (known : KnownSchemas) (context : Context) (cases : List (Value × Value))
    (done : List (Value × Payload)) : Except Fault (List (Value × Payload)) :=
  match cases with
  | [] => .ok done
  | (name, payload) :: rest => do
    let p ← if payload.isAbsent then pure (.target (.value .absent))
      else match variantSchema? known payload with
        | some s => pure (.target (.schema s))
        | none => (shape known (context.set "variant" name) payload).map .shape
    shapeCases known context rest (Value.assign (.text name.str) p done)
termination_by (Value.depthEntries cases, cases.length + 1)
decreasing_by
  all_goals
    simp_wf
    simp only [Prod.lex_def, Value.depthEntries]
    omega

end

end Configuration
end Conform
