import Conform.Host
import Conform.Regex.Matcher

/-!
The checks of the engine, and running a constraint function. A check gives nothing when the value
passes, or the details of its failure. Running a function never fails: whatever a function of the
program returns or raises is turned into an outcome.
-/

namespace Conform

def details (c : Context) : Details := c.map fun (k, v) => (.text k, v)

/-- The side on which a bound stands. -/
inductive BoundSide where
  | lower | upper
  deriving Repr, DecidableEq

namespace Check

/-- Compares a value with a bound. A value that is no number, or that has no order with the bound, fails. -/
def compare (side : BoundSide) (value bound : Value) : Except Fault (Option Details) :=
  let fail (message : String) : Option Details :=
    some (details [("bound", bound), ("actual", .text value.str), ("message", .text message)])
  let undefined := match value with
    | .float x => x.isNaN
    | _ => false
  if undefined then .ok (fail "value is NaN, which cannot be compared")
  else
    let (beyond, wording) := match side with
      | .lower => (value.lt bound, " is less than ")
      | .upper => (value.gt bound, " is greater than ")
    match beyond with
    | .ok true => .ok (fail (value.str ++ wording ++ bound.str))
    | .ok false => .ok none
    | .error f =>
      if f.isTypeFault then
        .ok (fail ("cannot compare " ++ value.className ++ " with " ++ bound.className))
      else .error f

/-- Requires a value to equal another. -/
def equal (value expected : Value) : Option Details :=
  if value.eq expected then none
  else some (details [("message", .text (value.str ++ " != " ++ expected.str)), ("expected", expected),
    ("actual", .text value.str)])

/-- Compares a length with a bound; what has no length fails. -/
def length (side : BoundSide) (value bound : Value) : Except Fault (Option Details) :=
  match value.length? with
  | none => .ok (some (details
      [("message", .text ("value of type " ++ value.className ++ " has no length")), ("bound", bound)]))
  | some n =>
    let (beyond, opening, limit) := match side with
      | .lower => (Value.lt (.int n) bound, "value does not have enough elements", "minimum")
      | .upper => (Value.gt (.int n) bound, "value has too many elements", "maximum")
    beyond.map fun b =>
      if b then some (details
        [("message",
            .text (opening ++ ", it has " ++ toString n ++ " but the " ++ limit ++ " is " ++ bound.str)),
          ("bound", bound), ("actual", .int n)])
      else none

def predicateName (f : Value) : String := f.declaredName?.getD "predicate"

/-- Requires a function of the program to accept a value. The parameter is the function, or a pair of it
and a message. -/
def predicate (h : Host) (value param : Value) : Except Fault (Option Details) := do
  let (f, message) ← match param with
    | .tuple [f, message] => pure (f, message)
    | .tuple items => .error (.unpackCount 2 items.length)
    | f => pure (f, .absent)
  let outcome ← h.callValue f [value]
  if outcome.truthy then return none
  let name := predicateName f
  let shown := if message.truthy then message else .text ("predicate \"" ++ name ++ "\" failed")
  return some (details [("message", shown), ("predicate", .text name)])

/-- The fault of a malformed regular expression. -/
def regexFault (source : String) (e : RegexError) : Fault :=
  match e.crash? with
  | some kind => .raised kind (e.message source.toList)
  | none => .badPattern (e.message source.toList)

/-- The regular expression of a parameter: a source, or one with options. -/
def regexOf (param : Value) : Except Fault (String × Regex.Compiled) :=
  let compile (source : String) (flags : PatternFlags) :=
    match Regex.compile source.toList flags with
    | .ok c => .ok (source, c)
    | .error e => .error (regexFault source e)
  match param with
  | .pattern source flags => compile source flags
  | param => match param.asText? with
    | some source => compile source {}
    | none => .error (.lacking param "match")

/-- Requires a text to match a regular expression from its start. -/
def pattern (value param : Value) : Except Fault (Option Details) :=
  match value.asText? with
  | none => .ok (some (details
      [("message", .text ("value must be a string for pattern matching, got " ++ value.className))]))
  | some s => do
    let (source, regex) ← regexOf param
    if regex.matches s then return none
    return some (details [("message", .text ("'" ++ value.str ++ "' does not match pattern '" ++ source ++ "'")),
      ("expected", .text source), ("actual", value)])

/-- Requires a value to be among the allowed ones. -/
def oneOf (value allowed : Value) : Except Fault (Option Details) := do
  if ← allowed.contains value then return none
  match allowed.iterate? with
  | none => .error (.notIterable allowed.fullName)
  | some items =>
    return some (details
      [("message", .text (value.repr ++ " is not one of: " ++ ", ".intercalate (items.map Value.repr))),
        ("expected", .list items), ("actual", .text value.str)])

end Check

/-- Runs a check of the engine. Optional bounds let an absent value pass. -/
def BuiltinCheck.run (h : Host) (b : BuiltinCheck) (value param : Value) : Except Fault (Option Details) :=
  match b with
  | .min => Check.compare .lower value param
  | .max => Check.compare .upper value param
  | .optionMin => if value.isAbsent then .ok none else Check.compare .lower value param
  | .optionMax => if value.isAbsent then .ok none else Check.compare .upper value param
  | .equal => .ok (Check.equal value param)
  | .minLen => Check.length .lower value param
  | .maxLen => Check.length .upper value param
  | .predicate => Check.predicate h value param
  | .pattern => Check.pattern value param
  | .oneOf => Check.oneOf value param

/-- What a constraint function says of a value. -/
inductive Verdict where
  | holds
  | fails (details : Details)
  /-- A failed report, which is passed on as it is. -/
  | found (r : Report)
  deriving Inhabited

namespace ConstraintFunction

/-- The verdict that a function of the program gives by what it returns. -/
def verdictOf (name : String) : Outcome → Verdict
  | .report r => if r.valid then .holds else .found r
  | .value v =>
    match v with
    | .absent => .holds
    | .bool true => .holds
    | .bool false => .fails (details [("message", .text ("constraint '" ++ name ++ "' failed"))])
    | .mapping _ entries => .fails entries
    | v =>
      if v.asText?.isSome then .fails (details [("message", v)])
      else .fails (details
        [("message", .text ("constraint '" ++ name ++ "' returned unexpected " ++ v.className))])

/-- The verdict on a value for which a function could not be run. -/
def verdictOfFault (name : String) (f : Fault) : Verdict :=
  .fails (details
    [("message", .text ("constraint '" ++ name ++ "' raised " ++ f.kind ++ ": " ++ f.message)),
      ("exception", .text f.kind)])

/-- Runs a constraint function on a value with a parameter. -/
def evaluate (h : Host) (c : ConstraintFunction) (value param : Value) : Verdict :=
  match c.check with
  | .builtin b => match b.run h value param with
    | .ok none => .holds
    | .ok (some d) => .fails d
    | .error f => verdictOfFault c.name f
  | .custom f => match h.callValue f [value, param] with
    | .ok outcome => verdictOf c.name outcome
    | .error f => verdictOfFault c.name f

end ConstraintFunction

namespace BoundRule

/-- Records what a rule finds in a value. -/
def apply (h : Host) (rule : BoundRule) (value : Value) (r : Recorder) : Recorder :=
  match rule.function.evaluate h value rule.param with
  | .holds => r
  | .fails d => r.report rule.name d
  | .found report => r.adopt report.violations

/-- Records what rules find in a value, in order. -/
def applyAll (h : Host) (rules : List BoundRule) (value : Value) (r : Recorder) : Recorder :=
  rules.foldl (fun r rule => rule.apply h value r) r

/-- What a rule finds in a value, as seen from the value. -/
def violations (h : Host) (rule : BoundRule) (value : Value) : List Violation :=
  match rule.function.evaluate h value rule.param with
  | .holds => []
  | .fails d => [Violation.report rule.name d []]
  | .found report => report.violations

end BoundRule
end Conform
