import Conform.Configuration.References
import Conform.Configuration.Shapes

/-!
Schemas from configurations. A factory keeps the schemas that it created, and later ones can refer to them
by name. A set of configurations is created with references first, so that they may stand in any
order; references that lead back to where they started are refused.
-/

namespace Conform

/-- What schemas are created with: a table of constraint functions, the schemas created so far by name,
and the serial number of the next one. -/
structure Factory where
  table : FunctionTable
  schemas : List (Value × Schema)
  nextSerial : Nat

/-- A computation with a factory; what was created before a fault stays. -/
abbrev Creation := ExceptT Fault (StateM Factory)

namespace Factory

open Conform.Configuration

def builder (name description : Value) : SchemaBuilder :=
  { name, description, resolver := some .importPaths }

/-- Whether a shape is optional at its outermost level. -/
def isOptional (s : Shape) : Bool := s.kind == .optional

/-- The shape that a field's configuration gives. -/
def fieldShape (known : KnownSchemas) (context : Context) (entries : List (Value × Value)) :
    Except Fault Shape := do
  let s ← match Value.lookup? (.text "shape") entries with
    | some config => shape known context config
    | none => (scalarType context (setting entries "type")).map fun t => .scalar t []
  if (setting entries "optional").truthy && !isOptional s then return .wrapper .optional (some s) none []
  return s

/-- Declares a configured field. -/
def addField (h : Host) (t : FunctionTable) (known : KnownSchemas) (b : SchemaBuilder) (config : Value) :
    Except Fault SchemaBuilder :=
  let malformed := Configuration.refuse (.unnamedField b.name) [("schema", b.name), ("field", config)]
  match config with
  | .mapping _ entries => do
    let some name := Value.lookup? (.text "name") entries | throw malformed
    let context : Context := [("schema", b.name), ("field", name)]
    let s ← fieldShape known context entries
    let rules ← declaredRules context (setting entries "rules")
    b.field h t name (.shape s) (rules.map .rule) []
  | _ => .error malformed

/-- The builder of a configured schema with its fields and checks. -/
def declare (h : Host) (t : FunctionTable) (known : KnownSchemas) (name : Value)
    (config : List (Value × Value)) : Except Fault SchemaBuilder := do
  let fields ← match Value.lookup? (.text "fields") config with
    | none => pure []
    | some (.list items) => pure items
    | some _ => .error (Configuration.refuse (.fieldsNotList name) [("schema", name)])
  let b ← fields.foldlM (addField h t known) (builder name (setting config "description"))
  if !(setting config "checks").truthy then return b
  let rules ← declaredRules [("schema", name)] (setting config "checks")
  b.check h t (rules.map .rule) []

/-- Creates a schema from its configuration and remembers it by name. -/
def create (h : Host) (config : List (Value × Value)) : Creation Schema := do
  let f ← get
  let name := (Value.lookup? (.text "name") config).getD (.text "unnamed_schema")
  let b ← liftExcept (declare h f.table f.schemas name config)
  let s := b.build f.nextSerial
  set { f with table := f.table.freeze, nextSerial := f.nextSerial + 1 }
  liftExcept name.requireKey
  modify fun f => { f with schemas := Value.assign name s f.schemas }
  return s
where
  liftExcept {α : Type} (e : Except Fault α) : Creation α := ExceptT.mk (pure e)

/-! ### Sets of configurations -/

/-- A configuration under its name. -/
abbrev Definition := Value × List (Value × Value)

/-- Takes the definition of a name out of some definitions. -/
def takeDefinition (name : Value) : (pending : List Definition) →
    Option (List (Value × Value) × { rest : List Definition // rest.length < pending.length })
  | [] => none
  | (n, config) :: rest =>
    if n.same name then some (config, ⟨rest, by simp⟩)
    else (takeDefinition name rest).map fun (found, ⟨others, h⟩) =>
      (found, ⟨(n, config) :: others, by simp; omega⟩)

/-- The names from the first occurrence of one on. -/
def namesFrom (name : Value) : List Value → List Value
  | [] => []
  | n :: rest => if n.same name then n :: rest else namesFrom name rest

/-- The fault of references that lead back to a name. -/
def cycleFault (name : Value) (visiting : List Value) : Fault :=
  let cycle := namesFrom name visiting ++ [name]
  match cycle.zipIdx.mapM fun (v, i) => match v.asText? with
    | some s => Except.ok s
    | none => .error (Fault.joinItem i v.fullName) with
  | .error f => f
  | .ok names => Configuration.refuse (.cycle names) [("cycle", .list cycle)]

/-- The arguments that a configuration gives to the creation of a schema: their names must be texts, and not the
name of the factory that creates. -/
def requireArguments (config : List (Value × Value)) : Except Fault Unit :=
  if !config.all fun (k, _) => k.asText?.isSome then .error .keywordType
  else if (Value.lookup? (.text "self") config).isSome then
    .error (.repeatedArgument "SchemaFactory.create" "self")
  else .ok ()

mutual

/-- Creates the schema of a name after those that it refers to. `visiting` are the names whose schemas
wait for this one, `pending` the definitions of all others, and `created` what is there already. -/
def build (h : Host) (names : List Value) (visiting : List Value) (pending : List Definition)
    (created : List (Value × Schema)) (name : Value) : Creation (List (Value × Schema)) :=
  if (Value.lookup? name created).isSome then pure created
  else if Value.elemOf name visiting then throw (cycleFault name visiting)
  else match takeDefinition name pending with
    | none => pure created
    | some (config, ⟨rest, _⟩) => do
      let refs ← create.liftExcept (Configuration.references config)
      let created ← buildReferences h names (visiting ++ [name]) rest created name refs
      create.liftExcept (requireArguments config)
      let s ← create h config
      return Value.assign name s created
termination_by (pending.length, 0)
decreasing_by
  simp only [Prod.lex_def]
  omega

/-- Creates the schemas that a definition refers to. -/
def buildReferences (h : Host) (names : List Value) (visiting : List Value) (pending : List Definition)
    (created : List (Value × Schema)) (name : Value) (refs : List Value) : Creation (List (Value × Schema)) :=
  match refs with
  | [] => pure created
  | r :: rest => do
    create.liftExcept r.requireKey
    if Value.elemOf r names then
      let created ← build h names visiting pending created r
      buildReferences h names visiting pending created name rest
    else if (Value.lookup? r (← get).schemas).isSome then
      buildReferences h names visiting pending created name rest
    else throw (Configuration.refuse (.unknownReference name r) [("schema", name), ("reference", r)])
termination_by (pending.length, refs.length + 1)

end

/-- The definitions of a set of configurations, which must have different names. -/
def definitions : List Value → List Definition → Except Fault (List Definition)
  | [], done => .ok done
  | config :: rest, done =>
    match config with
    | .mapping _ entries => match Value.lookup? (.text "name") entries with
      | none => .error (Configuration.refuse .unnamedDefinition [("config", config)])
      | some name => do
        name.requireKey
        if (Value.lookup? name done).isSome then
          throw (Configuration.refuse (.definedTwice name) [("schema", name)])
        definitions rest (done ++ [(name, entries)])
    | config => .error (Configuration.refuse .unnamedDefinition [("config", config)])

/-- Creates every schema of a set of definitions that is not created yet. -/
def buildAll (h : Host) (all : List Definition) : List Value → List (Value × Schema) →
    Creation (List (Value × Schema))
  | [], created => pure created
  | name :: rest, created => do
    let created ← build h (all.map Prod.fst) [] all created name
    buildAll h all rest created

/-- Creates a set of schemas that may refer to each other, and gives them in the order of the set. -/
def createMany (h : Host) (configs : List Value) : Creation (List (Value × Schema)) := do
  let all ← create.liftExcept (definitions configs [])
  let created ← buildAll h all (all.map Prod.fst) []
  return all.filterMap fun (name, _) => (Value.lookup? name created).map fun s => (name, s)

/-- Creates every schema of a configuration with a list of schemas. -/
def load (h : Host) (config : List (Value × Value)) : Creation (List (Value × Schema)) :=
  match Value.lookup? (.text "schemas") config with
  | some (.list configs) => createMany h configs
  | _ => throw (Configuration.refuse .noSchemas [])

end Factory
end Conform
