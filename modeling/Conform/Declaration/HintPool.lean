import Conform.Declaration.Hint

/-!
Hints that are shared. A hint made from parts that equal those of an earlier hint is that earlier hint, so
the spelling of the first is the one that counts: a bound that was declared as `3` stays `3` where a later
hint says `3.0`. A pool keeps the annotated hints and the unions that were used last, `HintPool.capacity` of
each; hints whose parts cannot be keys are never shared.
-/

namespace Conform

/-- Hints with what each was made from, the last used first. -/
abbrev SharedHints := List (Value × Hint)

/-- The hints that later hints may turn out to be. -/
structure HintPool where
  annotated : SharedHints := []
  unions : SharedHints := []

namespace HintPool

/-- How many hints of one sort are kept. -/
def capacity : Nat := 128

/-- What a hint is made from, in the order in which it was given. -/
def partsOf : Hint → Value
  | .union hs => .tuple (Hint.keys hs)
  | h => h.key

/-- The hint that was made from the same parts as a hint, else the hint itself, which is then the last used. -/
def shareAmong (made : SharedHints) (h : Hint) : Hint × SharedHints :=
  let parts := partsOf h
  if parts.unhashable?.isSome then (h.normalize, made)
  else
    let shared := (Value.lookup? parts made).getD h.normalize
    (shared, ((parts, shared) :: made.filter fun (p, _) => !p.same parts).take capacity)

/-- A hint in normal form, or the equal one that a pool has. -/
def share (pool : HintPool) (h : Hint) : Hint × HintPool :=
  match h with
  | .annotated .. =>
    let (shared, annotated) := shareAmong pool.annotated h
    (shared, { pool with annotated })
  | .union _ | .classVariable _ =>
    let (shared, unions) := shareAmong pool.unions h
    (shared, { pool with unions })
  | h => (h.normalize, pool)

end HintPool
end Conform
