import Conform.Declaration.Hint
import Conform.Host
import Conform.Object.Reading

/-!
Declared classes: their hints, the values that they give their fields, and the classes above them. A data
class keeps a list of fields, those of the classes above it first; it is constructed from values by
name, a field without a value takes its default, and no field without a default may follow one with a
default. Other classes take whatever attributes they are given.
-/

namespace Conform

/-- What a declaration gives a field: rules and, if there is one, a default value or a function that
makes one. -/
structure FieldDefault where
  declarations : Declarations
  value : Option Value := none
  factory : Option Value := none

/-- The value that a class gives one of its attributes. -/
inductive FieldValue where
  | value (v : Value)
  | constrained (f : FieldDefault)

def FieldDefault.toObject (f : FieldDefault) : Value :=
  Object.shown .fieldDefault none ([("constraints", f.declarations.toObject)]
    ++ (f.value.map fun v => ("default", v)).toList ++ (f.factory.map fun v => ("default_factory", v)).toList)

def Declarations.ofObject? (known : SchemaIndex) (v : Value) : Option Declarations :=
  if v.isOf .declarations then
    some ⟨(v.part "rules").items.filterMap Rule.ofValue?, Shape.ofObject? known (v.part "shape")⟩
  else none

/-- A field's declaration with at most one default. -/
def FieldDefault.declare (declarations : Declarations) (value factory : Option Value) :
    Except Fault FieldDefault :=
  if value.isSome && factory.isSome then .error .twoDefaults else .ok ⟨declarations, value, factory⟩

/-- What a class gives an attribute when its declaration says a value: a field's declaration, or just the
value. -/
def FieldValue.ofObject (known : SchemaIndex) (v : Value) : FieldValue :=
  match (if v.isOf .fieldDefault then Declarations.ofObject? known (v.part "constraints") else none) with
  | some d => .constrained ⟨d, v.attribute? "default", v.attribute? "default_factory"⟩
  | none => .value v

def FieldValue.toObject : FieldValue → Value
  | .value v => v
  | .constrained f => f.toObject

/-- What a field of a data class is to construction and to instances. -/
inductive FieldRole where
  | plain | classLevel | initOnly
  deriving Repr, DecidableEq

/-- A field of a data class. -/
structure DataField where
  name : String
  role : FieldRole
  declarations : Option Declarations
  value : Option Value
  factory : Option Value

/-- A declared class. -/
structure ClassModel where
  ref : DeclaredClass
  doc : Option String
  hints : List (String × Hint)
  attributes : List (String × FieldValue)
  /-- The fields of a data class, those of the classes above included. -/
  dataFields : Option (List DataField)
  /-- The classes above, nearest first. -/
  ancestors : List ClassModel

/-- How a class is declared. -/
structure ClassDeclaration where
  name : String
  doc : Option String
  fields : List (String × Hint × Option FieldValue)
  attributes : List (String × FieldValue)
  isData : Bool
  bases : List ClassModel

namespace ClassModel

/-- The classes above some bases, nearest first: a class that several bases share stands after them all. -/
def lineage (bases : List ClassModel) : List ClassModel :=
  let all := bases.flatMap fun b => b :: b.ancestors
  all.foldr (fun m later => if later.any (fun o => o.ref.serial == m.ref.serial) then later else m :: later) []

/-- The first of some classes' attributes of a name. -/
def firstAttribute? (name : String) : List ClassModel → Option FieldValue
  | [] => none
  | m :: rest => match m.attributes.lookup name with
    | some a => some a
    | none => firstAttribute? name rest

/-- An attribute of a class, its own or one of the classes above. -/
def attribute? (m : ClassModel) (name : String) : Option FieldValue := firstAttribute? name (m :: m.ancestors)

def nearestFields : List ClassModel → Option (List DataField)
  | [] => none
  | m :: rest => match m.dataFields with
    | some fs => some fs
    | none => nearestFields rest

/-- The fields that a class has as a data class, its own or those of the nearest data class above. -/
def fields? (m : ClassModel) : Option (List DataField) := nearestFields (m :: m.ancestors)

def classAttributes (m : ClassModel) : List (String × Value) :=
  (m :: m.ancestors).flatMap fun c => c.attributes.map fun (n, a) => (n, a.toObject)

def toValue (m : ClassModel) : Value := .cls (.declared m.ref) m.classAttributes

def roleOf : Hint → FieldRole
  | .classVariable _ => .classLevel
  | .initVariable _ => .initOnly
  | _ => .plain

/-- The class of a default that is shared by all instances although it can change, if it is one. -/
def changeable? : Value → Option String
  | .tuple _ | .record .. => none
  | v => v.unhashable?.map fun _ => v.fullName

def dataField (name : String) (hint : Hint) (given : Option FieldValue) : Except Fault DataField := do
  let field : DataField := match given with
    | none => ⟨name, roleOf hint, none, none, none⟩
    | some (.value v) => ⟨name, roleOf hint, none, some v, none⟩
    | some (.constrained f) => ⟨name, roleOf hint, some f.declarations, f.value, f.factory⟩
  if field.role ≠ .plain && field.factory.isSome then throw (.defaultFactory name)
  match field.role, field.value.bind changeable? with
  | .plain, some c => throw (.changeableDefault c name)
  | _, _ => return field

/-- Sets a field in its place, or at the end. -/
def putField (f : DataField) : List DataField → List DataField
  | [] => [f]
  | g :: rest => if g.name = f.name then f :: rest else g :: putField f rest

/-- Refuses a field without a default after one with a default. -/
def checkOrder (seen : Bool) : List DataField → Except Fault Unit
  | [] => .ok ()
  | f :: rest =>
    if f.role = .classLevel then checkOrder seen rest
    else if f.value.isSome || f.factory.isSome then checkOrder true rest
    else if seen then .error (.defaultOrder f.name)
    else checkOrder seen rest

/-- The attributes that a data class keeps: defaults stand for themselves. -/
def keptAttributes (attributes : List (String × FieldValue)) : List (String × FieldValue) :=
  attributes.filterMap fun (n, a) => match a with
    | .value v => some (n, .value v)
    | .constrained f => f.value.map fun v => (n, .value v)

def declare (serial : Nat) (d : ClassDeclaration) : Except Fault ClassModel := do
  let ancestors := lineage d.bases
  let hints := d.fields.map fun (n, hint, _) => (n, hint)
  let attributes := d.fields.filterMap (fun (n, _, v) => v.map fun v => (n, v)) ++ d.attributes
  let ref : DeclaredClass :=
    { serial, name := d.name, qualifiedName := d.name, ancestors := ancestors.map fun m => m.ref.serial,
      fields := none }
  if !d.isData then return ⟨ref, d.doc, hints, attributes, none, ancestors⟩
  let inherited := ancestors.reverse.flatMap fun m => m.dataFields.getD []
  let own ← hints.mapM fun (n, hint) =>
    dataField n hint ((attributes.lookup n).or (firstAttribute? n ancestors))
  let fields := (inherited ++ own).foldl (fun fs f => putField f fs) []
  checkOrder false fields
  let shown := (fields.filter fun f => f.role = .plain).map DataField.name
  return ⟨{ ref with fields := some shown }, d.doc, hints, keptAttributes attributes, some fields, ancestors⟩

/-! ### Instances -/

/-- The value that a field takes when it is given none. -/
def defaultValue (h : Host) (f : DataField) : Except Fault (Option Value) :=
  match f.factory with
  | some make => (h.callValue make []).map Outcome.value?
  | none => .ok f.value

/-- The attributes of a new instance of a data class. -/
def dataAttributes (h : Host) (className : String) (fields : List DataField) (given : List (String × Value)) :
    Except Fault (List (String × Value)) := do
  let params := fields.filter fun f => f.role ≠ .classLevel
  match given.find? fun (n, _) => !params.any fun f => f.name = n with
  | some (n, _) => throw (.unexpectedArgument className n)
  | none => pure ()
  let missing := params.filter fun f =>
    f.value.isNone && f.factory.isNone && (given.lookup f.name).isNone
  if !missing.isEmpty then throw (.missingArguments (className ++ ".__init__") (missing.map DataField.name))
  let kept := params.filter fun f => f.role = .plain
  kept.mapM fun f => do
    match given.lookup f.name with
    | some v => return (f.name, v)
    | none => return (f.name, (← defaultValue h f).getD .absent)

/-- A new instance of a class. -/
def construct (h : Host) (m : ClassModel) (serial : Nat) (given : List (String × Value)) :
    Except Fault Value := do
  let own ← match m.fields? with
    | some fields => dataAttributes h m.ref.name fields given
    | none => pure given
  return .object m.ref serial own m.classAttributes

end ClassModel
end Conform
