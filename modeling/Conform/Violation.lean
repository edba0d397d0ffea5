import Conform.Path

/-!
What validation reports. A violation names the constraint that failed, the details that it gave, and the
path to the offending value. A report holds every violation of one validation, in the order in which
they were found; it is valid exactly when there are none.
-/

namespace Conform

/-- Details of a violation, by key, in the order in which they were given. -/
abbrev Details := List (Value × Value)

/-- One constraint that a value violates. -/
structure Violation where
  kind : String
  details : Details
  path : Path
  deriving Inhabited, Repr

namespace Violation

/-- The key of the message among the details. -/
def messageKey : Value := .text "message"

/-- A violation whose details hold a message, a general one if none was given. -/
def report (kind : String) (details : Details) (path : Path) : Violation :=
  { kind
    details := match Value.lookup? messageKey details with
      | some _ => details
      | none => details ++ [(messageKey, .text ("constraint '" ++ kind ++ "' failed"))]
    path }

def message (v : Violation) : String := ((Value.lookup? messageKey v.details).map Value.str).getD ""

/-- The violation seen from further out. -/
def under (p : Path) (v : Violation) : Violation := { v with path := p ++ v.path }

def toValue (v : Violation) : Value :=
  .dict [(.text "path", .list (v.path.map Segment.toValue)), (.text "kind", .text v.kind),
    (.text "context", .dict v.details)]

/-- Where a violation is and what it says. -/
def text (v : Violation) : String :=
  let location := Path.text v.path
  (if location.isEmpty then "<root>" else location) ++ ": " ++ v.message

@[simp] theorem under_nil (v : Violation) : v.under [] = v := rfl

theorem under_under (p q : Path) (v : Violation) : (v.under q).under p = v.under (p ++ q) := by
  simp [under]

@[simp] theorem path_under (p : Path) (v : Violation) : (v.under p).path = p ++ v.path := rfl

/-- Reporting further out and moving out are the same. -/
theorem under_report (kind : String) (details : Details) (p q : Path) :
    (report kind details q).under p = report kind details (p ++ q) := rfl

end Violation

/-- The violations at exactly one path. -/
def Violation.at (vs : List Violation) (p : Path) : List Violation := vs.filter fun v => Path.same v.path p

/-- The texts of violations, a line each. -/
def Violation.lines (vs : List Violation) : String := "\n".intercalate (vs.map Violation.text)

/-- The outcome of validating a value. -/
structure Report where
  valid : Bool
  value : Value
  violations : List Violation
  deriving Inhabited, Repr

namespace Report

def success (value : Value) : Report := ⟨true, value, []⟩

/-- The report of a value with violations; there must be some. -/
def failure (value : Value) (violations : List Violation) : Except Fault Report :=
  if violations.isEmpty then .error .emptyFailure else .ok ⟨false, value, violations⟩

/-- The report of a value with the violations that were found. -/
def of (value : Value) (violations : List Violation) : Report := ⟨violations.isEmpty, value, violations⟩

def toValue (r : Report) : Value :=
  .dict [(.text "valid", .bool r.valid), (.text "errors", .list (r.violations.map Violation.toValue))]

@[simp] theorem violations_of (value : Value) (vs : List Violation) : (of value vs).violations = vs := rfl

theorem valid_of_iff (value : Value) (vs : List Violation) : (of value vs).valid = true ↔ vs = [] := by
  simp [of]

end Report
end Conform
