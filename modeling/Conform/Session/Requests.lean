import Conform.Session.Operations

/-!
Requests to a builder and to the table of its functions. Both change in place and are reached by their
numbers, so the answer to a request depends on all that was asked of either before. A script is a list of
requests; one that fails is answered by its fault, and the script goes on.
-/

namespace Conform

/-- What can be asked of a builder, or of the table of its functions. -/
inductive Request where
  | field (name : Value) (shape : ShapeSpelling) (rules : List RuleSpelling) (named : List (String × Value))
  | check (rules : List RuleSpelling) (named : List (String × Value))
  | describe (description : Value)
  | compileShape (shape : ShapeSpelling)
  | build
  | register (f : ConstraintFunction) (overwrite : Bool)
  | define (f : ConstraintFunction) (overwrite : Bool)
  | unregister (key : Value)
  | clear
  | freeze

/-- Makes a request of the builder or of the table of a number. -/
def Request.perform (h : Host) (builder table : Nat) : Request → Action Value
  | .field name shape rules named => Action.declare builder fun b t => b.field h t name shape rules named
  | .check rules named => Action.declare builder fun b t => b.check h t rules named
  | .describe description => Action.declare builder fun b _ => .ok (b.withDescription description)
  | .compileShape shape => Action.compileShape h builder shape
  | .build => Action.buildSchema builder
  | .register f overwrite => Action.register table f overwrite
  | .define f overwrite => Action.define table f overwrite
  | .unregister key => do return (← Action.changeTable table fun t => t.unregister key).toObject
  | .clear => Action.changeTable table fun t => t.clear.map fun t => (.absent, t)
  | .freeze => do
    Action.freeze table
    Action.shown table

/-- Runs a computation in a session. -/
def Action.runWith {α : Type} (x : Action α) (s : Session) : Except Fault α × Session := x.run s

/-- Requests in the order in which they are made, each with the program around it. -/
abbrev Script := List (Host × Request)

namespace Script

/-- The answers to the requests of a script, and the session after it. -/
def run (builder table : Nat) : Script → Session → List (Except Fault Value) × Session
  | [], s => ([], s)
  | (h, r) :: rest, s =>
    let made := (r.perform h builder table).runWith s
    let after := run builder table rest made.2
    (made.1 :: after.1, after.2)

/-- The requests of a script that succeed when it is run. -/
def succeeding (builder table : Nat) : Script → Session → Script
  | [], _ => []
  | (h, r) :: rest, s =>
    let made := (r.perform h builder table).runWith s
    let after := succeeding builder table rest made.2
    if made.1.isOk then (h, r) :: after else after

end Script
end Conform
