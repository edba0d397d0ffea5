import Conform.Declaration.Hint
import Conform.Host

/-!
The shape that a hint suggests. Classes with a schema are structures, other classes are scalars;
collections and mappings follow their parameters; a union with the absent value is optional, and a union
of classes with schemas is a choice between them. Declarations stand at the level that they annotate.
-/

namespace Conform

namespace Hint

/-- Whether a hint is a class with a schema, or the class under declaration. -/
def isStructure (h : Host) (owner : Option ClassRef) : Hint → Bool
  | .cls c attributes => owner == some c || (h.schemaOf? (.cls c attributes)).isSome
  | _ => false

/-- A scalar without a class. -/
def anyScalar : Shape := .scalar .absent []

/-- A shape with declarations: each explicit shape replaces what was there, and rules are added. -/
def amend (s : Shape) (notes : List Declarations) : Shape :=
  notes.foldl (fun s note => (note.shape.getD s).withRules note.rules) s

/-- A choice between classes, by their names. -/
def choice (members : List Hint) : List (Value × Payload) :=
  members.foldl (fun cases m => match m with
    | .cls c attributes => Value.assign (.text c.name) (.target (.value (.cls c attributes))) cases
    | _ => cases) []

/-- The shape of a union of several hints other than the absent value. -/
def unionShape (h : Host) (owner : Option ClassRef) (members : List Hint) : Shape :=
  if members.all (isStructure h owner) then .variants (choice members) .absent [] else anyScalar

def classShape (h : Host) (owner : Option ClassRef) (c : ClassRef) (attributes : List (String × Value)) :
    Shape :=
  match c with
  | .builtin .list | .builtin .tuple | .builtin .set | .builtin .frozenset | .builtin .deque =>
    .wrapper .sequence (some anyScalar) none []
  | .builtin .dict | .builtin .orderedDict => .wrapper .mapping (some anyScalar) none []
  | .builtin .object => anyScalar
  | c =>
    if isStructure h owner (.cls c attributes) then .nested (.value (.cls c attributes)) []
    else .scalar (.cls c attributes) []

mutual

/-- The shape that a hint suggests to a class under declaration, or to none. -/
def inferShape (h : Host) (owner : Option ClassRef) : Hint → Shape
  | .annotated base notes => amend (base.inferShape h owner) notes
  | .union members =>
    let present := (members.zip (inferShapes h owner members)).filter fun (m, _) => !m.isAbsentClass
    let inner := match present with
      | [(_, s)] => s
      | _ => unionShape h owner (present.map Prod.fst)
    if present.length < members.length then .wrapper .optional (some inner) none [] else inner
  | .generic (.elements _) args =>
    .wrapper .sequence (some ((inferShapes h owner args).head?.getD anyScalar)) none []
  | .generic .positions _ => .wrapper .sequence (some anyScalar) none []
  | .generic (.entries _) args => match inferShapes h owner args with
    | [keys, values] => .wrapper .mapping (some values) (some keys) []
    | _ => .wrapper .mapping (some anyScalar) none []
  | .cls c attributes => classShape h owner c attributes
  | .nothing | .forward _ | .generic (.other _) _ | .literal _ | .classVariable _ | .initVariable _ => anyScalar

/-- The shapes that several hints suggest. -/
def inferShapes (h : Host) (owner : Option ClassRef) : List Hint → List Shape
  | [] => []
  | x :: rest => x.inferShape h owner :: inferShapes h owner rest

end

end Hint
end Conform
