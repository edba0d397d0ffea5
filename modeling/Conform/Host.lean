import Conform.Recorder
import Conform.Schema.Basic

/-!
What the engine needs from the program around it: the behaviour of the functions that values name, the
schemas that classes and schema objects among the values stand for, and the modules that import
paths lead to.
-/

namespace Conform

/-- What a function of the program gives back: a value, or a report. -/
inductive Outcome where
  | value (v : Value)
  | report (r : Report)
  deriving Inhabited

/-- The program around the engine. -/
structure Host where
  /-- Calls a function with some values. -/
  call : FunctionRef → List Value → Except Fault Outcome
  /-- Calls a class, which has some attributes, with some values. -/
  construct : ClassRef → List (String × Value) → List Value → Except Fault Outcome
  /-- The schema that a declared class carries, its own or that of a class above it. -/
  classSchema : DeclaredClass → Option Schema
  /-- The schema that a schema object is. -/
  schemaObject : Nat → Option Schema
  /-- The contents of a module. -/
  module? : String → Option Value

namespace Outcome

/-- Whether an outcome counts as true. -/
def truthy : Outcome → Bool
  | .value v => v.truthy
  | .report r => r.valid

/-- An outcome as a value, when it is one. -/
def value? : Outcome → Option Value
  | .value v => some v
  | .report _ => none

end Outcome

namespace Host

/-- A program that supplies nothing: every call fails, and no class carries a schema. -/
def bare : Host where
  call _ _ := .error .zeroStep
  construct _ _ _ := .error .zeroStep
  classSchema _ := none
  schemaObject _ := none
  module? _ := none

/-- Calls a value: functions and classes can be called, and nothing else. -/
def callValue (h : Host) (f : Value) (args : List Value) : Except Fault Outcome :=
  match f with
  | .function f => h.call f args
  | .cls c attributes => h.construct c attributes args
  | f => .error (.notCallable f.fullName)

/-- The schema that a value stands for: that of a class, of an object's class, or of a schema object. -/
def schemaOf? (h : Host) : Value → Option Schema
  | .cls (.declared c) _ => h.classSchema c
  | .object c _ _ _ => h.classSchema c
  | .record r _ => if r.cls = .schema then h.schemaObject r.serial else none
  | _ => none

def targetSchema? (h : Host) : Target → Option Schema
  | .schema s => some s
  | .value v => h.schemaOf? v

/-- The schema of a target, which must have one when a value is validated by it. -/
def requireSchema (h : Host) (t : Target) : Except Fault Schema :=
  match h.targetSchema? t with
  | some s => .ok s
  | none => .error (.noSchema t.label)

end Host
end Conform
