import Conform.Text.Case
import Conform.Builder.Basic

/-!
The names that a configuration uses for classes of scalars and for kinds of shapes. They are read without
regard to case.
-/

namespace Conform

/-- A text is no absent value. -/
theorem Value.depth_pos_of_asText {v : Value} {s : String} (h : v.asText? = some s) : 0 < v.depth := by
  apply depth_pos
  rintro rfl
  simp [asText?] at h

namespace Configuration

/-- The classes of scalars by name; one name stands for any scalar. -/
def typeNames : List (String × Option BuiltinClass) :=
  [("int", some .int), ("integer", some .int), ("float", some .float), ("str", some .str),
    ("string", some .str), ("bool", some .bool), ("boolean", some .bool), ("bytes", some .bytes),
    ("binary", some .bytes), ("decimal", some .decimal), ("date", some .date),
    ("datetime", some .datetime), ("any", none)]

/-- The kinds of shapes by name. -/
def kindNames : List (String × FieldKind) :=
  [("scalar", .scalar), ("optional", .optional), ("sequence", .sequence), ("list", .sequence),
    ("mapping", .mapping), ("dict", .mapping), ("nested", .nested), ("enum", .enum), ("variants", .enum)]

/-- The class of a name, if it is the name of one. -/
def typeNamed? (name : String) : Option (Option BuiltinClass) := typeNames.lookup (lowerText name)

/-- The kind of a name, if it is the name of one. -/
def kindNamed? (name : String) : Option FieldKind := kindNames.lookup (lowerText name)

/-- What a setting of a configuration is, absent when it is not there. -/
def setting (entries : List (Value × Value)) (name : String) : Value :=
  (Value.lookup? (.text name) entries).getD .absent

theorem depth_setting_le (entries : List (Value × Value)) (name : String) :
    (setting entries name).depth ≤ Value.depthEntries entries := by
  unfold setting
  cases h : Value.lookup? (.text name) entries with
  | none => simp [Value.depth]
  | some v =>
    obtain ⟨_, hm⟩ := Value.lookup?_mem h
    simpa using (Value.depth_le_depthEntries hm).2

def refuse (cause : ConfigurationCause) (context : Context) : Fault := .refused (.configuration cause context)

/-- The class of scalars that a configuration names; nothing stands for any scalar. -/
def scalarType (context : Context) (name : Value) : Except Fault Value :=
  match name with
  | .absent => .ok .absent
  | name => match typeNamed? name.str with
    | some (some c) => .ok (.cls (.builtin c) [])
    | some none => .ok .absent
    | none => .error (refuse (.invalidType name) (context.set "type" name))

/-- The rules that a configuration declares: a list of rules, or one mapping. -/
def declaredRules (context : Context) (config : Value) : Except Fault (List Rule) :=
  if !config.truthy then .ok []
  else
    let read (items : List Value) : Except Fault (List Rule) :=
      (Rule.ofSpellings (items.map .value) []).mapError fun f => refuse (.invalidRule f.message) context
    match config with
    | .mapping .. => read [config]
    | .list items => read items
    | config => .error (refuse (.invalidRules config) context)

end Configuration
end Conform
