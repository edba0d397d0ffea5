import Conform.Value.Basic
import Conform.Text.Quoted

/-!
Regular expressions as trees, and what can be wrong with their sources.
-/

namespace Conform

/-- Classes of characters. -/
inductive CharClass where
  | digit | space | word
  deriving Inhabited, Repr, DecidableEq

/-- A member of a character set. -/
inductive SetItem where
  | char (c : Nat)
  | range (low high : Nat)
  | cls (k : CharClass) (negated : Bool)
  deriving Inhabited, Repr, DecidableEq

/-- Conditions on a position. -/
inductive Anchor where
  | lineStart | lineEnd | textStart | textEnd | boundary | noBoundary
  deriving Inhabited, Repr, DecidableEq

/-- How a repetition chooses: as often as possible, as rarely as possible, or as often as possible without
ever giving back. -/
inductive RepeatMode where
  | greedy | lazy | possessive
  deriving Inhabited, Repr, DecidableEq

/-- A regular expression. -/
inductive Regex where
  | char (c : Nat)
  | notChar (c : Nat)
  | any
  | oneOf (negated : Bool) (items : List SetItem)
  | anchor (a : Anchor)
  | seq (items : List Regex)
  | alt (options : List Regex)
  | many (min : Nat) (max : Option Nat) (mode : RepeatMode) (body : Regex)
  /-- A group, with options that its body adds and removes. -/
  | group (number : Option Nat) (add remove : PatternFlags) (body : Regex)
  | backref (number : Nat)
  | look (ahead negated : Bool) (body : Regex)
  | atomic (body : Regex)
  | ifGroup (number : Nat) (yes : Regex) (no : Option Regex)
  deriving Inhabited, Repr

namespace PatternFlags

/-- The options of both. -/
def union (f g : PatternFlags) : PatternFlags :=
  ⟨f.ascii || g.ascii, f.ignoreCase || g.ignoreCase, f.multiline || g.multiline, f.dotAll || g.dotAll,
    f.verbose || g.verbose⟩

/-- The options of the first that the second lacks. -/
def without (f g : PatternFlags) : PatternFlags :=
  ⟨f.ascii && !g.ascii, f.ignoreCase && !g.ignoreCase, f.multiline && !g.multiline, f.dotAll && !g.dotAll,
    f.verbose && !g.verbose⟩

def ofLetter? : Char → Option PatternFlags
  | 'a' => some { ascii := true }
  | 'i' => some { ignoreCase := true }
  | 'm' => some { multiline := true }
  | 's' => some { dotAll := true }
  | 'x' => some { verbose := true }
  | 'u' => some {}
  | _ => Option.none

def ofLetters (s : String) : PatternFlags :=
  s.toList.foldl (fun f c => f.union ((ofLetter? c).getD {})) {}

/-- The letters of the options that are set. -/
def letters (f : PatternFlags) : String :=
  (if f.ascii then "a" else "") ++ (if f.ignoreCase then "i" else "") ++ (if f.multiline then "m" else "")
    ++ (if f.dotAll then "s" else "") ++ (if f.verbose then "x" else "")

end PatternFlags

/-- What is wrong with the source of a regular expression. -/
inductive RegexError where
  /-- A problem at a position. -/
  | malformed (problem : String) (position : Nat)
  /-- A look behind at something that can have several lengths. -/
  | variableLookBehind
  /-- A count that no repetition can have. -/
  | repeatTooLarge
  /-- The number of an escaped character beyond what a machine word holds. -/
  | characterTooLarge
  /-- Options for the whole expression that ask both for ASCII and for every script. -/
  | mixedScripts
  deriving Inhabited, Repr, DecidableEq

namespace RegexError

/-- The class of a failure to read a source that is not reported as a malformed source. -/
def crash? : RegexError → Option String
  | .malformed .. | .variableLookBehind => none
  | .repeatTooLarge | .characterTooLarge => some "OverflowError"
  | .mixedScripts => some "ValueError"

/-- The wording of a problem in a source; in a source of several lines it gives the line too. -/
def message (source : List Char) : RegexError → String
  | .malformed problem position =>
    let at_ := problem ++ " at position " ++ toString position
    if source.contains '\n' then
      let before := source.take position
      let line := before.count '\n' + 1
      let column := (before.reverse.takeWhile (· ≠ '\n')).length + 1
      at_ ++ " (line " ++ toString line ++ ", column " ++ toString column ++ ")"
    else at_
  | .variableLookBehind => "look-behind requires fixed-width pattern"
  | .repeatTooLarge => "the repetition number is too large"
  | .characterTooLarge => "Python int too large to convert to C int"
  | .mixedScripts => "ASCII and UNICODE flags are incompatible"

end RegexError

namespace Regex

mutual

/-- The smallest and, where there is one, the largest length that an expression matches; `groups` gives
the lengths of the groups that can be referred to. -/
def width (groups : List (Nat × Nat × Option Nat)) : Regex → Nat × Option Nat
  | .char _ | .notChar _ | .any | .oneOf .. => (1, some 1)
  | .anchor _ | .look .. => (0, some 0)
  | .seq items => widthSeq groups items
  | .alt options => widthAlt groups options
  | .many min max _ body =>
    let (low, high) := width groups body
    (low * min, match high, max with
      | some h, some m => some (h * m)
      | some 0, none => some 0
      | _, _ => none)
  | .group _ _ _ body | .atomic body => width groups body
  | .backref n => (groups.lookup n).getD (0, some 0)
  | .ifGroup _ yes no =>
    let (low, high) := width groups yes
    match no with
    | none => (0, high)
    | some no =>
      let (low', high') := width groups no
      (min low low', match high, high' with
        | some h, some h' => some (max h h')
        | _, _ => none)

/-- The lengths of a sequence. -/
def widthSeq (groups : List (Nat × Nat × Option Nat)) : List Regex → Nat × Option Nat
  | [] => (0, some 0)
  | r :: rest =>
    let (low, high) := width groups r
    let (low', high') := widthSeq groups rest
    (low + low', match high, high' with
      | some h, some h' => some (h + h')
      | _, _ => none)

/-- The lengths of a choice. -/
def widthAlt (groups : List (Nat × Nat × Option Nat)) : List Regex → Nat × Option Nat
  | [] => (0, some 0)
  | [r] => width groups r
  | r :: rest =>
    let (low, high) := width groups r
    let (low', high') := widthAlt groups rest
    (min low low', match high, high' with
      | some h, some h' => some (max h h')
      | _, _ => none)

end

end Regex
end Conform
