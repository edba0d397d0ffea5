import Conform.Configuration.Names

/-!
The schemas that the configuration of a schema refers to, in the order in which they are met: the schema
of every nested shape, and every text in the place of a variant that names neither a kind nor a class.
-/

namespace Conform
namespace Configuration

/-- Whether a text names a kind or a class of scalars. -/
def isReserved (name : String) : Bool := (kindNamed? name).isSome || (typeNamed? name).isSome

def nestedReference (entries : List (Value × Value)) : List Value :=
  let target := setting entries "schema"
  let kind := lowerText (((Value.lookup? (.text "kind") entries).map Value.str).getD "")
  if kind = "nested" && !target.isAbsent then [target] else []

mutual

/-- The references in a shape; a text is one in the place of a variant only. -/
def shapeReferences (inVariant : Bool) (config : Value) : Except Fault (List Value) :=
  match config with
  | .mapping _ entries => do
    have := depth_setting_le entries "items"
    have := depth_setting_le entries "inner"
    have := depth_setting_le entries "values"
    have := depth_setting_le entries "keys"
    have hle := depth_setting_le entries "variants"
    let items ← shapeReferences false (setting entries "items")
    let inner ← shapeReferences false (setting entries "inner")
    let values ← shapeReferences false (setting entries "values")
    let keys ← shapeReferences false (setting entries "keys")
    let cases ← match hv : setting entries "variants" with
      | .mapping _ cases =>
        have : Value.depthEntries cases < Value.depthEntries entries := by
          rw [hv] at hle; simp only [Value.depth] at hle; omega
        caseReferences cases
      | v => if v.truthy then .error (.lacking v "values") else .ok []
    return nestedReference entries ++ items ++ inner ++ values ++ keys ++ cases
  | config =>
    match config.asText? with
    | some name => .ok (if inVariant && !isReserved name then [config] else [])
    | none => .ok []
termination_by (config.depth, 0)
decreasing_by
  all_goals
    simp only [Prod.lex_def, Value.depth]
    omega

/-- The references in the payloads of a choice. -/
def caseReferences (cases : List (Value × Value)) : Except Fault (List Value) :=
  match cases with
  | [] => .ok []
  | (_, payload) :: rest => do
    let here ← shapeReferences true payload
    return here ++ (← caseReferences rest)
termination_by (Value.depthEntries cases, cases.length + 1)
decreasing_by
  all_goals
    simp_wf
    simp only [Prod.lex_def, Value.depthEntries]
    omega

end

def fieldReferences : List Value → Except Fault (List Value)
  | [] => .ok []
  | .mapping _ entries :: rest => do
    let here ← shapeReferences false (setting entries "shape")
    return here ++ (← fieldReferences rest)
  | _ :: rest => fieldReferences rest

def references (config : List (Value × Value)) : Except Fault (List Value) :=
  let fields := setting config "fields"
  if !fields.truthy then .ok []
  else match fields.iterate? with
    | some items => fieldReferences items
    | none => .error (.notIterable fields.fullName)

end Configuration
end Conform
