import Conform.Value.Order
import Conform.Constraint.Basic

/-!
Conflicts between rules of one level: the same rule twice, two parameters for an exclusive function, and
a lower bound above an upper bound of its group.
-/

namespace Conform

namespace BoundRule

/-- Whether a rule is a bound on a given side. -/
def isBound (r : BoundRule) (side : String) : Bool := r.function.bound == some side

/-- The lower and the upper bound of a pair of rules of one group, if it is such a pair. -/
def boundPair (first second : BoundRule) : Option (BoundRule × BoundRule) :=
  if first.function.group.isSome && first.function.group == second.function.group then
    if first.isBound "lower" && second.isBound "upper" then some (first, second)
    else if first.isBound "upper" && second.isBound "lower" then some (second, first)
    else none
  else none

/-- Refuses a lower bound above an upper one, and bounds that have no order. -/
def checkBounds (first second : BoundRule) (site : Site) : Except Fault Unit :=
  match boundPair first second with
  | none => .ok ()
  | some (lower, upper) =>
    match lower.param.gt upper.param with
    | .ok false => .ok ()
    | .ok true => .error (.refused (.contradictoryBounds lower.name upper.name lower.param upper.param site))
    | .error f =>
      if f.isTypeFault then
        .error (.refused (.incomparableBounds lower.name upper.name lower.param upper.param site))
      else .error f

/-- Refuses a rule beside an earlier one of its level. -/
def checkPair (earlier rule : BoundRule) (site : Site) : Except Fault Unit :=
  if rule.name = earlier.name ∧ rule.param.same earlier.param then
    .error (.refused (.declaredTwice rule.name rule.param site))
  else if rule.name = earlier.name ∧ rule.function.exclusive then
    .error (.refused (.conflictingValues rule.name earlier.param rule.param site))
  else checkBounds earlier rule site

/-- Refuses a rule beside the earlier ones of its level, in order. -/
def checkAgainst (rule : BoundRule) (site : Site) : List BoundRule → Except Fault Unit
  | [] => .ok ()
  | earlier :: rest =>
    match checkPair earlier rule site with
    | .error f => .error f
    | .ok () => rule.checkAgainst site rest

/-- Refuses each rule beside those before it; `before` are the rules that were passed. -/
def checkConflicts (site : Site) (before : List BoundRule) : List BoundRule → Except Fault Unit
  | [] => .ok ()
  | rule :: rest =>
    match rule.checkAgainst site before with
    | .error f => .error f
    | .ok () => checkConflicts site (before ++ [rule]) rest

end BoundRule
end Conform
