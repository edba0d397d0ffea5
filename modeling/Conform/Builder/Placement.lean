import Conform.Shape

/-!
Placing a rule of a field: it goes to the outermost level of the field's shape that its function applies
to. The levels of a field are the shape itself and, as long as it is a wrapper, the shape inside it.
-/

namespace Conform

namespace FieldKind

/-- Whether a kind contains another level. -/
def isWrapper : FieldKind → Bool
  | .optional | .sequence | .mapping => true
  | _ => false

end FieldKind

namespace Shape

/-- The shape with a rule at the outermost level of some kinds, if it has such a level. -/
def place (kinds : List FieldKind) (rule : Rule) : Shape → Option Shape
  | .mk kind rules type inner keys target cases tag =>
    if kinds.contains kind then some (.mk kind (rules ++ [rule]) type inner keys target cases tag)
    else if kind.isWrapper then
      (match inner with
        | some s => s.place kinds rule
        | none => if kinds.contains .scalar then some (.scalar .absent [rule]) else none).map fun placed =>
        .mk kind rules type (some placed) keys target cases tag
    else none

end Shape
end Conform
