import Conform.Value.Kind
import Conform.Text.Quoted

/-!
The two texts of a value: `Value.repr` shows how it is built, `Value.str` how it reads. They differ for
texts, members of enumerations, numbers with a class name around them, dates and the engine's objects.
-/

namespace Conform

/-- The arguments of a date, and of a moment without the parts that are zero at its end. -/
def Date.arguments (d : Date) : List String := [toString d.year, toString d.month, toString d.day]

/-- An offset as the distance that builds it, split into days and seconds. -/
def offsetRepr (o : Int) : String :=
  if o = 0 then "datetime.timezone.utc"
  else
    let days := Int.fdiv o 86400
    let seconds := Int.fmod o 86400
    let parts := (if days = 0 then [] else ["days=" ++ toString days])
      ++ (if seconds = 0 then [] else ["seconds=" ++ toString seconds])
    "datetime.timezone(datetime.timedelta(" ++ ", ".intercalate parts ++ "))"

/-- How a moment is built: seconds and microseconds stand only when they, or what follows, are not zero. -/
def Moment.repr (m : Moment) : String :=
  let clock := [toString m.hour, toString m.minute]
    ++ (if m.second = 0 ∧ m.micro = 0 then [] else [toString m.second])
    ++ (if m.micro = 0 then [] else [toString m.micro])
  let zone := (m.offset.map fun o => ["tzinfo=" ++ offsetRepr o]).getD []
  "datetime.datetime(" ++ ", ".intercalate (m.date.arguments ++ clock ++ zone) ++ ")"

/-- A ratio, without a denominator of one. -/
def ratioText (num : Int) (den : Nat) : String :=
  if den = 1 then toString num else toString num ++ "/" ++ toString den

/-- The names of the options that are set. -/
def PatternFlags.names (f : PatternFlags) : List String :=
  (if f.ignoreCase then ["re.IGNORECASE"] else []) ++ (if f.multiline then ["re.MULTILINE"] else [])
    ++ (if f.dotAll then ["re.DOTALL"] else []) ++ (if f.verbose then ["re.VERBOSE"] else [])
    ++ (if f.ascii then ["re.ASCII"] else [])

/-- How a regular expression is built; its source is cut after 200 characters. -/
def patternRepr (source : String) (flags : PatternFlags) : String :=
  let shown := String.ofList ((quoted source).toList.take 200)
  let names := flags.names
  "re.compile(" ++ shown ++ (if names.isEmpty then "" else ", " ++ "|".intercalate names) ++ ")"

/-- How a range is built; a step of one is left out. -/
def rangeRepr (start stop step : Int) : String :=
  "range(" ++ toString start ++ ", " ++ toString stop
    ++ (if step = 1 then "" else ", " ++ toString step) ++ ")"

def boolText (b : Bool) : String := if b then "True" else "False"

namespace Value

mutual

/-- How a value is built. -/
def repr : Value → String
  | .absent => "None"
  | .bool b => boolText b
  | .int n => toString n
  | .float x => x.text
  | .complex z => z.text
  | .decimal d => "Decimal('" ++ d.text ++ "')"
  | .fraction num den => "Fraction(" ++ toString num ++ ", " ++ toString den ++ ")"
  | .date d => "datetime.date(" ++ ", ".intercalate d.arguments ++ ")"
  | .moment m => m.repr
  | .text s => quoted s
  | .bytes mutable bs => if mutable then "bytearray(" ++ quotedBytes true bs ++ ")" else quotedBytes false bs
  | .range start stop step => rangeRepr start stop step
  | .pattern source flags => patternRepr source flags
  | .sequence .list items => "[" ++ ", ".intercalate (reprItems items) ++ "]"
  | .sequence .tuple [item] => "(" ++ item.repr ++ ",)"
  | .sequence .tuple items => "(" ++ ", ".intercalate (reprItems items) ++ ")"
  | .sequence .deque items => "deque([" ++ ", ".intercalate (reprItems items) ++ "])"
  | .bag .. => "<bag>"
  | .set false [] => "set()"
  | .set true [] => "frozenset()"
  | .set false items => "\x7b" ++ ", ".intercalate (reprItems items) ++ "\x7d"
  | .set true items => "frozenset(\x7b" ++ ", ".intercalate (reprItems items) ++ "\x7d)"
  | .mapping .plain entries => "\x7b" ++ ", ".intercalate (reprEntries entries) ++ "\x7d"
  | .mapping .ordered [] => "OrderedDict()"
  | .mapping .ordered entries => "OrderedDict([" ++ ", ".intercalate (reprPairs entries) ++ "])"
  | .mapping .view entries => "mappingproxy(\x7b" ++ ", ".intercalate (reprEntries entries) ++ "\x7d)"
  | .member c name payload => "<" ++ c.name ++ "." ++ name ++ ": " ++ payload.repr ++ ">"
  | .function f => "<fn " ++ f.name ++ ">"
  | .cls c _ => c.text
  | .object c _ own inherited =>
    match c.fields with
    | none => "<" ++ c.name ++ ">"
    | some fields =>
      let shown := reprAttributes own ++ reprAttributes inherited
      c.name ++ "(" ++ ", ".intercalate (fields.map fun f => f ++ "=" ++ ((shown.lookup f).getD "")) ++ ")"
  | .record r _ => r.repr

/-- How each item is built. -/
def reprItems : List Value → List String
  | [] => []
  | v :: rest => v.repr :: reprItems rest

/-- Each entry as `key: value`. -/
def reprEntries : List (Value × Value) → List String
  | [] => []
  | (k, v) :: rest => (k.repr ++ ": " ++ v.repr) :: reprEntries rest

/-- Each entry as a pair. -/
def reprPairs : List (Value × Value) → List String
  | [] => []
  | (k, v) :: rest => ("(" ++ k.repr ++ ", " ++ v.repr ++ ")") :: reprPairs rest

/-- Each attribute with its text. -/
def reprAttributes : List (String × Value) → List (String × String)
  | [] => []
  | (n, v) :: rest => (n, v.repr) :: reprAttributes rest

end

/-- How a value reads. -/
def str (v : Value) : String :=
  match v with
  | .text s => s
  | .decimal d => d.text
  | .fraction num den => ratioText num den
  | .date d => d.iso
  | .moment m => m.isoWith " "
  | .member c name payload => if c.base = .int then payload.repr else c.name ++ "." ++ name
  | .record r _ => r.text
  | v => v.repr

end Value
end Conform
