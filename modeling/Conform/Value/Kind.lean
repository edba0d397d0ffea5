import Conform.Value.Basic

/-!
The class of a value, the classes above it, and what a class promises of its instances.
-/

namespace Conform

namespace BuiltinClass

def name : BuiltinClass → String
  | .object => "object" | .noneType => "NoneType" | .bool => "bool" | .int => "int"
  | .float => "float" | .complex => "complex" | .str => "str" | .bytes => "bytes"
  | .bytearray => "bytearray" | .list => "list" | .tuple => "tuple" | .dict => "dict"
  | .orderedDict => "OrderedDict" | .set => "set" | .frozenset => "frozenset" | .deque => "deque"
  | .range => "range" | .decimal => "Decimal" | .fraction => "Fraction" | .date => "date"
  | .datetime => "datetime" | .pattern => "Pattern" | .readOnlyDict => "mappingproxy" | .bag => "Bag"

/-- The name of a class with the module that it lives in. -/
def qualifiedName (c : BuiltinClass) : String :=
  match c with
  | .orderedDict | .deque => "collections." ++ c.name
  | .decimal => "decimal." ++ c.name
  | .fraction => "fractions." ++ c.name
  | .date | .datetime => "datetime." ++ c.name
  | .pattern => "re." ++ c.name
  | c => c.name

/-- Every class that every program has. -/
def all : List BuiltinClass :=
  [.object, .noneType, .bool, .int, .float, .complex, .str, .bytes, .bytearray, .list, .tuple, .dict,
    .orderedDict, .set, .frozenset, .deque, .range, .decimal, .fraction, .date, .datetime, .pattern,
    .readOnlyDict, .bag]

/-- Whether the name of a class stands for it everywhere. -/
def isGlobal : BuiltinClass → Bool
  | .noneType | .orderedDict | .deque | .decimal | .fraction | .date | .datetime | .pattern | .readOnlyDict
  | .bag => false
  | _ => true

/-- Whether the instances of a class are numbers, complex ones included. -/
def isNumeric : BuiltinClass → Bool
  | .bool | .int | .float | .complex | .decimal | .fraction => true
  | _ => false

/-- Whether the instances of a class have a length. -/
def isSized : BuiltinClass → Bool
  | .str | .bytes | .bytearray | .list | .tuple | .dict | .orderedDict | .set | .frozenset | .deque
  | .range | .readOnlyDict | .bag => true
  | _ => false

end BuiltinClass

namespace RecordClass

/-- The name of a class of the engine's own objects. -/
def name : RecordClass → String
  | .segment => "PathSegment" | .violation => "ValidationError" | .violations => "ErrorCollection"
  | .report => "ValidationResult" | .constraint => "ConstraintFunction" | .rule => "Rule"
  | .boundRule => "BoundRule" | .shape => "Shape" | .node => "Node" | .fieldSpec => "FieldSpec"
  | .schema => "Schema" | .declarations => "Constraints" | .fieldDefault => "Field"
  | .table => "FunctionTable" | .builder => "SchemaBuilder" | .factory => "SchemaFactory"
  | .recorder => "ErrorBuilder" | .exception n => n | .module => "module"

/-- Whether two objects of the class are equal when their attributes are. -/
def isStructural : RecordClass → Bool
  | .segment | .violation | .violations | .report | .constraint | .rule | .boundRule | .shape | .fieldSpec
  | .declarations => true
  | _ => false

/-- Whether equality looks at the attributes at all; nodes inside other objects have no serial number of
their own. -/
def comparesAttributes (c : RecordClass) : Bool := c.isStructural || c == .node

/-- Whether objects of the class can be keys. -/
def isHashable : RecordClass → Bool
  | .violations | .report => false
  | _ => true

end RecordClass

namespace ClassRef

def name : ClassRef → String
  | .builtin c => c.name
  | .any => "Any"
  | .enumeration e => e.name
  | .declared c => c.name

def text : ClassRef → String
  | .builtin c => "<class '" ++ c.qualifiedName ++ "'>"
  | .any => "typing.Any"
  | .enumeration e => "<enum '" ++ e.name ++ "'>"
  | .declared c => "<class '" ++ c.qualifiedName ++ "'>"

/-- The name of a class's own class. -/
def metaName : ClassRef → String
  | .any => "_AnyMeta"
  | .enumeration _ => "EnumType"
  | .builtin .fraction => "ABCMeta"
  | _ => "type"

/-- The name of a class as faults about the class itself give it. -/
def fullName : ClassRef → String
  | .builtin .fraction => "Fraction"
  | .builtin c => c.qualifiedName
  | c => c.name

/-- Whether the instances of a class are numbers, complex ones included. -/
def isNumeric : ClassRef → Bool
  | .builtin c => c.isNumeric
  | .enumeration e => e.base == .int
  | _ => false

/-- Whether the instances of a class are texts. -/
def isTextual : ClassRef → Bool
  | .builtin c => c == .str
  | .enumeration e => e.base == .text
  | _ => false

/-- Whether a class answers for a length, its own or that of its instances. -/
def isSized : ClassRef → Bool
  | .builtin c => c.isSized
  | .enumeration _ => true
  | _ => false

end ClassRef

namespace Value

def className : Value → String
  | .absent => "NoneType"
  | .bool _ => "bool"
  | .int _ => "int"
  | .float _ => "float"
  | .complex _ => "complex"
  | .decimal _ => "Decimal"
  | .fraction .. => "Fraction"
  | .date _ => "date"
  | .moment _ => "datetime"
  | .text _ => "str"
  | .bytes mutable _ => if mutable then "bytearray" else "bytes"
  | .range .. => "range"
  | .pattern .. => "Pattern"
  | .sequence .list _ => "list"
  | .sequence .tuple _ => "tuple"
  | .sequence .deque _ => "deque"
  | .bag .. => "Bag"
  | .set frozen _ => if frozen then "frozenset" else "set"
  | .mapping .plain _ => "dict"
  | .mapping .ordered _ => "OrderedDict"
  | .mapping .view _ => "mappingproxy"
  | .member c _ _ => c.name
  | .function f => f.className
  | .cls c _ => c.metaName
  | .object c _ _ _ => c.name
  | .record r _ => r.cls.name

/-- The name of a value's class with the module that it lives in, as faults give it. -/
def fullName (v : Value) : String :=
  match v with
  | .decimal _ => "decimal.Decimal"
  | .date _ => "datetime.date"
  | .moment _ => "datetime.datetime"
  | .sequence .deque _ => "collections.deque"
  | .mapping .ordered _ => "collections.OrderedDict"
  | .pattern .. => "re.Pattern"
  | v => v.className

/-- Whether a value is an instance of a class that every program has. A truth value is a whole number, a
moment is a date, and an ordered mapping is a mapping. -/
def isBuiltin (v : Value) (c : BuiltinClass) : Bool :=
  match c, v with
  | .object, _ => true
  | .noneType, .absent => true
  | .bool, .bool _ => true
  | .int, .bool _ => true
  | .int, .int _ => true
  | .int, .member e _ _ => e.base == .int
  | .float, .float _ => true
  | .complex, .complex _ => true
  | .str, .text _ => true
  | .str, .member e _ _ => e.base == .text
  | .bytes, .bytes mutable _ => !mutable
  | .bytearray, .bytes mutable _ => mutable
  | .list, .sequence k _ => k == .list
  | .tuple, .sequence k _ => k == .tuple
  | .deque, .sequence k _ => k == .deque
  | .dict, .mapping k _ => k != .view
  | .orderedDict, .mapping k _ => k == .ordered
  | .readOnlyDict, .mapping k _ => k == .view
  | .set, .set frozen _ => !frozen
  | .frozenset, .set frozen _ => frozen
  | .range, .range .. => true
  | .decimal, .decimal _ => true
  | .fraction, .fraction .. => true
  | .date, .date _ => true
  | .date, .moment _ => true
  | .datetime, .moment _ => true
  | .pattern, .pattern .. => true
  | .bag, .bag .. => true
  | _, _ => false

/-- Whether a value is an instance of a class; nothing can be asked of the marker for any class. -/
def isInstance? (v : Value) : ClassRef → Option Bool
  | .any => none
  | .builtin c => some (v.isBuiltin c)
  | .enumeration e => match v with
    | .member e' _ _ => some (e' == e)
    | _ => some false
  | .declared c => match v with
    | .object c' _ _ _ => some (c'.serial == c.serial || c'.ancestors.contains c.serial)
    | _ => some false

/-- Whether a value is a real number that is no truth value. -/
def isRealNumber : Value → Bool
  | .int _ | .float _ | .fraction .. | .decimal _ => true
  | .member e _ _ => e.base == .int
  | _ => false

/-- The text that a value holds, when it is a text. -/
def asText? : Value → Option String
  | .text s => some s
  | .member e _ (.text s) => if e.base = .text then some s else none
  | _ => none

/-- The whole number that a value is, when it is one; truth values are 0 and 1. -/
def asInt? : Value → Option Int
  | .bool b => some (if b then 1 else 0)
  | .int n => some n
  | .member e _ (.int n) => if e.base = .int then some n else none
  | _ => none

/-- Whether a value can be called. -/
def isCallable : Value → Bool
  | .function _ | .cls .. => true
  | _ => false

def isMapping : Value → Bool
  | .mapping .. => true
  | _ => false

def isAbsent : Value → Bool
  | .absent => true
  | _ => false

end Value
end Conform
