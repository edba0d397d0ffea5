import Conform.Value.Collection

/-!
Places inside a value. A path is a list of steps from the root outwards: into a field, to a position, to
the entry of a key, or into the payload of a variant. The empty path is the root itself.
-/

namespace Conform

/-- What a step goes by. -/
inductive SegmentKind where
  | field | index | key | variant
  deriving Inhabited, Repr, DecidableEq

def SegmentKind.name : SegmentKind → String
  | .field => "field" | .index => "index" | .key => "key" | .variant => "variant"

/-- One step from a value into one of its parts. -/
structure Segment where
  kind : SegmentKind
  value : Value
  deriving Inhabited, Repr

/-- Steps from the root outwards. -/
abbrev Path := List Segment

namespace Segment

/-- A step into a field. -/
def field (name : Value) : Segment := ⟨.field, name⟩

def index (position : Nat) : Segment := ⟨.index, .int position⟩

/-- A step to the entry of a key. -/
def key (k : Value) : Segment := ⟨.key, k⟩

/-- A step into the payload of a variant. -/
def variant (name : Value) : Segment := ⟨.variant, name⟩

/-- Two steps are equal when they go the same way to equal values. -/
def same (a b : Segment) : Bool := a.kind == b.kind && a.value.same b.value

/-- A step as a mapping of its kind to where it goes; keys are shown as they read. -/
def toValue (s : Segment) : Value :=
  .dict [(.text s.kind.name, if s.kind = .key then .text s.value.str else s.value)]

/-- The text of a step: a bare field, a position or a quoted key in square brackets, a variant in angle
brackets. -/
def text (s : Segment) : String :=
  match s.kind with
  | .field => s.value.str
  | .index => "[" ++ s.value.str ++ "]"
  | .key => "[" ++ s.value.repr ++ "]"
  | .variant => "<" ++ s.value.str ++ ">"

end Segment

namespace Path

/-- The rest of a path's text: a point stands before each field. -/
def textAfter : Path → String
  | [] => ""
  | s :: rest => (if s.kind = .field then "." else "") ++ s.text ++ textAfter rest

/-- The text of a path, such as `outer.items[1]['key']<Variant>.field`; the root has none. -/
def text : Path → String
  | [] => ""
  | s :: rest => s.text ++ textAfter rest

/-- Two paths are equal when their steps are. -/
def same : Path → Path → Bool
  | [], [] => true
  | a :: p, b :: q => a.same b && same p q
  | _, _ => false

end Path
end Conform
