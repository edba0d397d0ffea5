import Conform.Session.Requests

/-!
Calls of recorders. A program makes recorders, takes steps with them, has violations reported and taken in from
elsewhere, and builds reports. Steps are left in the opposite order, those of all recorders together; a step is left
normally, or by an exception that goes on from there.
-/

namespace Conform

/-- Where a recorder takes violations in from. -/
inductive Source where
  /-- A report, by its place among those that were built. -/
  | report (i : Nat)
  /-- What another recorder collects, by the place of that one among the recorders. -/
  | recorder (k : Nat)
  /-- A value: a report, or anything that gives violations one after another. -/
  | value (v : Value)

/-- A call of the recorder at a place among those that were made, or one that makes another. -/
inductive RecorderCall where
  | make
  | enter (k : Nat) (step : Segment)
  /-- Leaves the innermost step, by an exception if there is one. -/
  | leave (raised : Option Fault)
  | report (k : Nat) (kind : String) (details : Details)
  | adopt (k : Nat) (source : Source)
  | build (k : Nat) (value : Value)

/-- A program that works with recorders: its session, and the numbers of the recorders and of the reports that it
made. -/
structure Desk where
  session : Session
  recorders : List Nat
  reports : List Nat

namespace Desk

def start : Desk := ⟨.start, [], []⟩

/-- The recorder at a place, as it is now. -/
def recorder? (d : Desk) (k : Nat) : Option Recorder := d.recorders[k]?.map fun n => (d.session.recorder n).2

end Desk

/-- The number at a place; there may be none. -/
def Action.requireNumber (numbers : List Nat) (k : Nat) : Action Nat :=
  lift (match numbers[k]? with
    | some n => .ok n
    | none => .error (.undefinedName (toString k)))

/-- The value that a recorder takes violations in from. -/
def Source.find (d : Desk) : Source → Action Value
  | .report i => do Action.shown (← Action.requireNumber d.reports i)
  | .recorder k => do
    let n ← Action.requireNumber d.recorders k
    let s ← get
    return s.violationsValue (s.recorder n).1
  | .value v => return v

namespace RecorderCall

def perform (d : Desk) : RecorderCall → Action Value
  | .make => Action.makeRecorder
  | .enter k step => do Action.enter (← Action.requireNumber d.recorders k) step
  | .leave raised => do
    Action.leave
    match raised with
    | none => return .absent
    | some e => throw e
  | .report k kind details => do
    let n ← Action.requireNumber d.recorders k
    Action.record n (·.report kind details)
  | .adopt k source => do
    let n ← Action.requireNumber d.recorders k
    Action.adopt n (← source.find d)
  | .build k value => do Action.buildReport (← Action.requireNumber d.recorders k) value

/-- A program keeps the recorders and the reports that it made. -/
def keep (d : Desk) : RecorderCall → Except Fault Value → Desk
  | .make, .ok v => { d with recorders := d.recorders ++ [v.serial] }
  | .build .., .ok v => { d with reports := d.reports ++ [v.serial] }
  | _, _ => d

/-- The answer to a call, and the program after it. -/
def step (d : Desk) (c : RecorderCall) : Except Fault Value × Desk :=
  let made := (c.perform d).runWith d.session
  (made.1, keep { d with session := made.2 } c made.1)

/-- The answers to calls in the order in which they are made, and the program after them. -/
def run : List RecorderCall → Desk → List (Except Fault Value) × Desk
  | [], d => ([], d)
  | c :: rest, d =>
    let made := c.step d
    let after := run rest made.2
    (made.1 :: after.1, after.2)

end RecorderCall
end Conform
