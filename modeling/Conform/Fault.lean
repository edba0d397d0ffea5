import Conform.Refusal

/-!
What stops a computation. An operation can be asked of a value that does not support it, a function that
the program supplies can fail in its own way, and a declaration can be refused. Each fault names its
cause; `Fault.kind` and `Fault.message` give its class and wording.
-/

namespace Conform

/-- What stops a computation. -/
inductive Fault where
  /-- A key or a set member of a class that cannot be one. -/
  | unhashable (className : String)
  /-- A membership test on something without members. -/
  | notContainer (className : String)
  /-- A membership test of a value that is no text in a text. -/
  | textMember (className : String)
  /-- A membership test of a value that is no byte in bytes. -/
  | byteMember (className : String)
  /-- A number that is no byte. -/
  | byteRange
  /-- A membership test of a value that is no member in an enumeration. -/
  | enumMember (className : String)
  | notIterable (className : String)
  | notSized (className : String)
  | notSubscriptable (className : String)
  | notCallable (className : String)
  /-- An attribute that an object lacks. -/
  | noAttribute (className name : String)
  /-- An attribute that a class lacks. -/
  | noClassAttribute (className name : String)
  /-- A member that an enumeration lacks. -/
  | noMember (name : String)
  /-- An attribute name that is no text. -/
  | attributeName (className : String)
  | indexOutOfRange (what : String)
  | indexType (what className : String)
  /-- A position that no collection can have. -/
  | indexSize
  /-- A slice that does not move. -/
  | zeroStep
  /-- A key that a mapping lacks, by its text. -/
  | missingKey (repr : String)
  /-- A class question about something that is no class. -/
  | notAClass
  /-- An instance question about something that is no class. -/
  | notAnInstanceClass
  /-- An instance question about the marker for any class. -/
  | anyInstance
  /-- Two values that have no order, by their class names and the operator between them. -/
  | unordered (operator left right : String)
  /-- A moment and a date, which have no order. -/
  | momentAndDate
  /-- Two moments of which one has no offset. -/
  | mixedOffsets
  /-- An order or a result that decimal arithmetic does not define. -/
  | undefinedDecimal
  /-- An item of a joined list that is no text. -/
  | joinItem (position : Nat) (className : String)
  /-- A parameter that unpacks into another number of parts than two. -/
  | unpackCount (expected actual : Nat)
  /-- An item that is no key with a value, by its position. -/
  | entryType (position : Nat)
  /-- An item of another number of parts than a key and a value. -/
  | entrySize (position actual : Nat)
  /-- A name that a forward reference does not find. -/
  | undefinedName (name : String)
  /-- A regular expression that is malformed. -/
  | badPattern (message : String)
  /-- A rule in none of the accepted spellings. -/
  | notARule (repr : String)
  /-- Something that is neither a shape nor a class. -/
  | notAShape (repr : String)
  /-- A target without a schema, met during validation. -/
  | noSchema (name : String)
  /-- A failed result that is given no errors. -/
  | emptyFailure
  /-- A relative import path. -/
  | relativeImport (path : String)
  /-- A default of a class that changes in place. -/
  | changeableDefault (className field : String)
  /-- A field without a default after one with a default. -/
  | defaultOrder (field : String)
  /-- A function that makes the default of something that is no field of instances. -/
  | defaultFactory (field : String)
  /-- A default beside a function that makes one. -/
  | twoDefaults
  /-- A value for a field that a class does not have. -/
  | unexpectedArgument (className field : String)
  /-- Parameters of a function that are given no value and have no default. -/
  | missingArguments (callee : String) (parameters : List String)
  /-- More values than a function has parameters. -/
  | extraArguments (callee : String) (expected given : Nat)
  /-- Something that is not iterable, given as all the arguments of a function. -/
  | notArguments (callee className : String)
  /-- A named argument whose name is no text. -/
  | keywordType
  /-- A named argument for a parameter that has a value already. -/
  | repeatedArgument (callee parameter : String)
  /-- A failure of a function that the program supplies. -/
  | raised (kind text : String)
  /-- A refused declaration. -/
  | refused (r : Refusal)
  deriving Inhabited, Repr

namespace Fault

def lacking (v : Value) (name : String) : Fault :=
  match v with
  | .cls (.enumeration _) _ => .noMember name
  | .cls c _ => .noClassAttribute c.fullName name
  | v => .noAttribute v.fullName name

/-- The class name of a fault. -/
def kind : Fault → String
  | .unhashable _ | .notContainer _ | .textMember _ | .byteMember _ | .enumMember _ | .notIterable _
  | .notSized _ | .notSubscriptable _ | .notCallable _ | .attributeName _ | .indexType .. | .notAClass
  | .notAnInstanceClass | .anyInstance | .unordered .. | .momentAndDate | .mixedOffsets | .joinItem ..
  | .notARule _ | .notAShape _ | .relativeImport _ | .defaultOrder _ | .defaultFactory _
  | .unexpectedArgument .. | .missingArguments .. | .extraArguments .. | .notArguments .. | .keywordType
  | .repeatedArgument .. | .entryType _ =>
    "TypeError"
  | .byteRange | .zeroStep | .unpackCount .. | .emptyFailure | .changeableDefault .. | .twoDefaults
  | .entrySize .. => "ValueError"
  | .noAttribute .. | .noClassAttribute .. | .noMember _ => "AttributeError"
  | .indexOutOfRange _ | .indexSize => "IndexError"
  | .missingKey _ => "KeyError"
  | .undefinedDecimal => "InvalidOperation"
  | .undefinedName _ => "NameError"
  | .badPattern _ => "error"
  | .noSchema _ => "LookupError"
  | .raised kind _ => kind
  | .refused r => r.kind.name

/-- Texts in a row, with a word before the last. -/
def enumerated : List String → String
  | [] => ""
  | [a] => a
  | [a, b] => a ++ " and " ++ b
  | a :: rest => a ++ ", " ++ enumeratedMore rest
where
  enumeratedMore : List String → String
    | [] => ""
    | [a] => "and " ++ a
    | a :: rest => a ++ ", " ++ enumeratedMore rest

def message : Fault → String
  | .unhashable c => "unhashable type: '" ++ c ++ "'"
  | .notContainer c => "argument of type '" ++ c ++ "' is not iterable"
  | .textMember c => "'in <string>' requires string as left operand, not " ++ c
  | .byteMember c => "a bytes-like object is required, not '" ++ c ++ "'"
  | .byteRange => "byte must be in range(0, 256)"
  | .enumMember c => "unsupported operand type(s) for 'in': '" ++ c ++ "' and 'EnumType'"
  | .notIterable c => "'" ++ c ++ "' object is not iterable"
  | .notSized c => "object of type '" ++ c ++ "' has no len()"
  | .notSubscriptable c => "'" ++ c ++ "' object is not subscriptable"
  | .notCallable c => "'" ++ c ++ "' object is not callable"
  | .noAttribute c n => "'" ++ c ++ "' object has no attribute '" ++ n ++ "'"
  | .noClassAttribute c n => "type object '" ++ c ++ "' has no attribute '" ++ n ++ "'"
  | .noMember n => n
  | .attributeName c => "attribute name must be string, not '" ++ c ++ "'"
  | .indexOutOfRange what => what ++ " index out of range"
  | .indexType what c => what ++ " indices must be integers or slices, not " ++ c
  | .indexSize => "cannot fit 'int' into an index-sized integer"
  | .zeroStep => "slice step cannot be zero"
  | .missingKey r => r
  | .notAClass => "issubclass() arg 1 must be a class"
  | .notAnInstanceClass => "isinstance() arg 2 must be a type, a tuple of types, or a union"
  | .anyInstance => "typing.Any cannot be used with isinstance()"
  | .unordered op a b => "'" ++ op ++ "' not supported between instances of '" ++ a ++ "' and '" ++ b ++ "'"
  | .momentAndDate => "can't compare datetime.datetime to datetime.date"
  | .mixedOffsets => "can't compare offset-naive and offset-aware datetimes"
  | .undefinedDecimal => "[<class 'decimal.InvalidOperation'>]"
  | .joinItem i c => "sequence item " ++ toString i ++ ": expected str instance, " ++ c ++ " found"
  | .unpackCount expected actual =>
    if actual < expected then
      "not enough values to unpack (expected " ++ toString expected ++ ", got " ++ toString actual ++ ")"
    else "too many values to unpack (expected " ++ toString expected ++ ")"
  | .entryType i => "cannot convert dictionary update sequence element #" ++ toString i ++ " to a sequence"
  | .entrySize i n => "dictionary update sequence element #" ++ toString i ++ " has length " ++ toString n
    ++ "; 2 is required"
  | .undefinedName n => "name '" ++ n ++ "' is not defined"
  | .badPattern m => m
  | .notARule r => "Cannot interpret " ++ r ++ " as a constraint rule"
  | .notAShape r => "Expected a Shape or a type, got " ++ r
  | .noSchema n => "'" ++ n ++ "' has no validation schema"
  | .emptyFailure => "A failed ValidationResult needs at least one error"
  | .relativeImport p => "the 'package' argument is required to perform a relative import for '" ++ p ++ "'"
  | .changeableDefault c n =>
    "mutable default <class '" ++ c ++ "'> for field " ++ n ++ " is not allowed: use default_factory"
  | .defaultOrder n => "non-default argument '" ++ n ++ "' follows default argument"
  | .defaultFactory n => "field " ++ n ++ " cannot have a default factory"
  | .twoDefaults => "cannot specify both default and default_factory"
  | .unexpectedArgument c n => c ++ ".__init__() got an unexpected keyword argument '" ++ n ++ "'"
  | .missingArguments c ns => c ++ "() missing " ++ toString ns.length ++ " required positional argument"
    ++ (if ns.length = 1 then "" else "s") ++ ": " ++ enumerated (ns.map fun n => "'" ++ n ++ "'")
  | .extraArguments c expected given =>
    c ++ "() takes " ++ toString expected ++ " positional argument" ++ (if expected = 1 then "" else "s")
      ++ " but " ++ toString given ++ (if given = 1 then " was given" else " were given")
  | .notArguments callee c => callee ++ "() argument after * must be an iterable, not " ++ c
  | .keywordType => "keywords must be strings"
  | .repeatedArgument c n => c ++ "() got multiple values for argument '" ++ n ++ "'"
  | .raised _ text => text
  | .refused r => r.message

/-- The fault of the opposite question: `b > a` fails as `a < b` does, with the sides exchanged. -/
def flip : Fault → Fault
  | .unordered "<" a b => .unordered ">" b a
  | f => f

/-- Whether a fault is a question asked of values that it does not suit. -/
def isTypeFault (f : Fault) : Bool := f.kind == "TypeError"

end Fault
end Conform
