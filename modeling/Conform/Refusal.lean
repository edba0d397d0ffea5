import Conform.Value.Text

/-!
Why a declaration, a registration or a look-up is refused. A refusal names its cause and where it
happened; its kind, its wording and its details follow from the cause.
-/

namespace Conform

/-- The kinds of refusals. -/
inductive RefusalKind where
  | engine | schema | unknownConstraint | constraintType | conflictingConstraint | duplicateField
  | configuration | registration | notFound | schemaNotFound
  /-- A key that a registry lacks, reported by the registry itself. -/
  | missingKey
  deriving Inhabited, Repr, DecidableEq

namespace RefusalKind

def name : RefusalKind → String
  | .engine => "ValidationEngineError"
  | .schema => "SchemaError"
  | .unknownConstraint => "UnknownConstraintError"
  | .constraintType => "ConstraintTypeError"
  | .conflictingConstraint => "ConflictingConstraintError"
  | .duplicateField => "DuplicateFieldError"
  | .configuration => "ConfigurationError"
  | .registration => "RegistrationError"
  | .notFound | .missingKey => "NotFoundError"
  | .schemaNotFound => "SchemaNotFoundError"

/-- Whether a refusal concerns the declaration of a schema. -/
def isSchemaError : RefusalKind → Bool
  | .schema | .unknownConstraint | .constraintType | .conflictingConstraint | .duplicateField
  | .configuration => true
  | _ => false

end RefusalKind

/-- Where a declaration stands: its schema, and the field and the variant when it is inside them. -/
structure Site where
  schema : Value
  field : Option Value := none
  variant : Option Value := none
  deriving Inhabited, Repr

namespace Site

/-- The wording of a place, from the inside out. -/
def text (s : Site) : String :=
  let part (what : String) (v : Option Value) : List String :=
    (v.map fun v => what ++ " '" ++ v.str ++ "'").toList
  " in ".intercalate (part "field" s.field ++ part "variant" s.variant ++ part "schema" (some s.schema))

/-- The details of a place. -/
def context (s : Site) : Context :=
  [("schema", s.schema)] ++ (s.field.map fun v => ("field", v)).toList
    ++ (s.variant.map fun v => ("variant", v)).toList

end Site

namespace Context

/-- Sets a detail; one that is present keeps its place. -/
def set (c : Context) (name : String) (v : Value) : Context :=
  match c with
  | [] => [(name, v)]
  | (n, w) :: rest => if n = name then (name, v) :: rest else (n, w) :: Context.set rest name v

/-- Sets details in turn. -/
def update (c : Context) (details : Context) : Context := details.foldl (fun c (n, v) => c.set n v) c

end Context

/-- What is wrong with a configuration. -/
inductive ConfigurationCause where
  | importPath (path : String)
  | importFailed (module reason : String)
  | importAttribute (module path : String)
  | fieldsNotList (schema : Value)
  | unnamedDefinition
  | definedTwice (schema : Value)
  | cycle (names : List String)
  | unknownReference (schema reference : Value)
  | invalidShape (shape : Value)
  | invalidKind (kind : String)
  | noVariants
  | unnamedField (schema : Value)
  | invalidType (type : Value)
  | invalidRules (rules : Value)
  | invalidRule (problem : String)
  | unknownSchema (reference : Value)
  | cannotLoad (path reason : String)
  | cannotParse (path reason : String)
  | rootNotMapping (path : String)
  | noSchemas
  deriving Inhabited, Repr

def ConfigurationCause.message : ConfigurationCause → String
  | .importPath p => "Invalid import path: " ++ p
  | .importFailed m reason => "Failed to import " ++ m ++ ": " ++ reason
  | .importAttribute m a => "Module " ++ m ++ " has no attribute " ++ a
  | .fieldsNotList s => "'fields' of schema " ++ s.str ++ " must be a list"
  | .unnamedDefinition => "Each schema configuration needs a 'name'"
  | .definedTwice s => "Schema " ++ s.str ++ " is defined twice"
  | .cycle names => "Schema references form a cycle: " ++ " -> ".intercalate names
  | .unknownReference s r => "Schema " ++ s.str ++ " refers to unknown schema " ++ r.str
  | .invalidShape v => "Invalid shape: " ++ v.repr
  | .invalidKind k => "Invalid shape kind: " ++ k
  | .noVariants => "'variants' must be a non-empty mapping"
  | .unnamedField s => "Field configuration missing 'name' in schema " ++ s.str
  | .invalidType t => "Invalid field type: " ++ t.str
  | .invalidRules v => "Invalid rules: " ++ v.repr
  | .invalidRule problem => problem
  | .unknownSchema r => "Unknown schema reference: " ++ r.str
  | .cannotLoad p reason => "Cannot load configuration from " ++ p ++ ": " ++ reason
  | .cannotParse p reason => "Cannot parse " ++ p ++ ": " ++ reason
  | .rootNotMapping p => "Configuration root must map names to lists of mappings: " ++ p
  | .noSchemas => "Configuration needs a top-level 'schemas' list"

/-- Why something is refused. -/
inductive Refusal where
  /-- A constraint name that the table lacks. -/
  | unknownConstraint (name : Value) (available : List String) (details : Context)
  /-- A rule that no level of a field can carry. -/
  | unplaceable (rule shape kind : String) (site : Site)
  /-- A rule on a level of a kind that its function does not apply to. -/
  | inapplicable (rule kind : String) (site : Site)
  /-- A parameter that the function's own check refuses. -/
  | badParameter (rule problem : String) (param : Value) (site : Site)
  /-- Two rules of one name with equal parameters. -/
  | declaredTwice (rule : String) (param : Value) (site : Site)
  /-- Two parameters for a rule that takes one only. -/
  | conflictingValues (rule : String) (earlier later : Value) (site : Site)
  /-- A lower and an upper bound that have no order. -/
  | incomparableBounds (lower upper : String) (low high : Value) (site : Site)
  /-- A lower bound above an upper one. -/
  | contradictoryBounds (lower upper : String) (low high : Value) (site : Site)
  /-- A field declared before. -/
  | duplicateField (schema field : Value)
  /-- A shape or a rule in no accepted spelling. -/
  | malformed (problem : String) (site : Site)
  /-- A scalar type that is no class. -/
  | scalarType (type : Value) (site : Site)
  /-- A variant field without variants. -/
  | noVariants (site : Site)
  /-- A nested field without a target. -/
  | noTarget (site : Site)
  /-- A target that has no schema. -/
  | targetWithoutSchema (name : String) (site : Site)
  /-- A malformed configuration. -/
  | configuration (cause : ConfigurationCause) (context : Context)
  /-- A change of a frozen table; `constraint` is the entry concerned. -/
  | frozenTable (table : String) (constraint : Option Value)
  /-- A constraint name that is taken. -/
  | alreadyRegistered (table name : String)
  /-- An entry that a table lacks. -/
  | missingEntry (table : String) (key : Value)
  /-- A value of a class without a schema. -/
  | schemaNotFound (className : String)
  deriving Inhabited, Repr

namespace Refusal

def kind : Refusal → RefusalKind
  | .unknownConstraint .. => .unknownConstraint
  | .unplaceable .. | .inapplicable .. | .badParameter .. | .incomparableBounds .. => .constraintType
  | .declaredTwice .. | .conflictingValues .. | .contradictoryBounds .. => .conflictingConstraint
  | .duplicateField .. => .duplicateField
  | .malformed .. | .scalarType .. | .noVariants .. | .noTarget .. | .targetWithoutSchema .. => .schema
  | .configuration .. => .configuration
  | .frozenTable .. | .alreadyRegistered .. => .registration
  | .missingEntry .. => .missingKey
  | .schemaNotFound .. => .schemaNotFound

/-- A place in brackets after a text. -/
def located (text : String) (site : Site) : String := text ++ " (" ++ site.text ++ ")"

def message : Refusal → String
  | .unknownConstraint name _ _ => "Unknown constraint '" ++ name.str ++ "'"
  | .unplaceable rule shape _ site =>
    located ("Constraint '" ++ rule ++ "' cannot apply to a " ++ shape ++ " field") site
  | .inapplicable rule kind site =>
    located ("Constraint '" ++ rule ++ "' cannot apply to a " ++ kind ++ " value") site
  | .badParameter rule problem _ site =>
    located ("Invalid parameter for '" ++ rule ++ "': " ++ problem) site
  | .declaredTwice rule _ site => located ("Constraint '" ++ rule ++ "' is declared twice") site
  | .conflictingValues rule earlier later site =>
    located ("Conflicting values for '" ++ rule ++ "': " ++ earlier.repr ++ " and " ++ later.repr) site
  | .incomparableBounds lower upper low high site =>
    located ("Bounds " ++ lower ++ "=" ++ low.repr ++ " and " ++ upper ++ "=" ++ high.repr
      ++ " are not comparable") site
  | .contradictoryBounds lower upper low high site =>
    located (lower ++ " (" ++ low.repr ++ ") is greater than " ++ upper ++ " (" ++ high.repr ++ ")") site
  | .duplicateField schema field =>
    "Field '" ++ field.str ++ "' is already declared in schema '" ++ schema.str ++ "'"
  | .malformed problem site => located problem site
  | .scalarType type site => located ("Scalar type must be a class, got " ++ type.repr) site
  | .noVariants site => located "A variant field needs at least one variant" site
  | .noTarget site => located "Nested field has no target" site
  | .targetWithoutSchema name site =>
    located ("Nested target '" ++ name ++ "' has no validation schema") site
  | .configuration cause _ => cause.message
  | .frozenTable table _ => "Function table '" ++ table ++ "' is frozen"
  | .alreadyRegistered table name => "Constraint '" ++ name ++ "' already registered in " ++ table
  | .missingEntry _ key => "Item not found: " ++ key.str
  | .schemaNotFound className => "No validation schema for type '" ++ className ++ "'"

def context : Refusal → Context
  | .unknownConstraint name available details =>
    Context.update [("constraint", name), ("available", .list (available.map .text))] details
  | .unplaceable rule _ kind site | .inapplicable rule kind site =>
    site.context ++ [("constraint", .text rule), ("kind", .text kind)]
  | .badParameter rule _ param site | .declaredTwice rule param site =>
    site.context ++ [("constraint", .text rule), ("param", param)]
  | .conflictingValues rule earlier later site =>
    site.context ++ [("constraint", .text rule), ("params", .list [earlier, later])]
  | .incomparableBounds _ _ low high site | .contradictoryBounds _ _ low high site =>
    site.context ++ [("lower", low), ("upper", high)]
  | .duplicateField schema field => [("schema", schema), ("field", field)]
  | .malformed _ site | .scalarType _ site | .noVariants site | .noTarget site => site.context
  | .targetWithoutSchema name site => site.context ++ [("target", .text name)]
  | .configuration _ context => context
  | .frozenTable table constraint =>
    [("table", .text table)] ++ (constraint.map fun c => ("constraint", c)).toList
  | .alreadyRegistered table name => [("table", .text table), ("constraint", .text name)]
  | .missingEntry table key => [("key", key), ("registry", .text table)]
  | .schemaNotFound className => [("type", .text className)]

end Refusal
end Conform
