import Conform.Violation

/-!
Recording violations during one validation. A recorder holds what was reported so far and the path of the
place that is being validated; steps are entered and left like brackets, and whatever is reported
lands at the current path.
-/

namespace Conform

/-- The violations reported so far, and the current path. -/
structure Recorder where
  violations : List Violation
  path : Path
  deriving Inhabited, Repr

namespace Recorder

/-- Nothing reported, at the root. -/
def empty : Recorder := ⟨[], []⟩

/-- Takes a step. -/
def enter (r : Recorder) (s : Segment) : Recorder := { r with path := r.path ++ [s] }

/-- Takes the last step back. -/
def leave (r : Recorder) : Recorder := { r with path := r.path.dropLast }

/-- Records a violation at the current path. -/
def report (r : Recorder) (kind : String) (details : Details) : Recorder :=
  { r with violations := r.violations ++ [Violation.report kind details r.path] }

/-- Records violations found elsewhere, as seen from the current path. -/
def adopt (r : Recorder) (vs : List Violation) : Recorder :=
  { r with violations := r.violations ++ vs.map (Violation.under r.path) }

/-- Whether something was reported. -/
def hasViolations (r : Recorder) : Bool := !r.violations.isEmpty

def build (r : Recorder) (value : Value) : Report := .of value r.violations

/-- Runs an action one step further in. -/
def inside (r : Recorder) (s : Segment) (action : Recorder → Except Fault Recorder) : Except Fault Recorder :=
  (action (r.enter s)).map leave

end Recorder
end Conform
