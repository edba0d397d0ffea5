import Conform.Regex.Reader
import Conform.Text.Case

/-!
Matching a text against a regular expression, from its start. The matcher tries the alternatives in order
and goes back when what follows fails; `next` stands for what follows. A repetition beyond its least
count goes on only where the last round took something, so the length of the text bounds its rounds.
-/

namespace Conform.Regex

/-- Where each group matched, the latest first. -/
abbrev Groups := List (Nat × Nat × Nat)

/-- Where a match ends, and its groups. -/
abbrev Outcome := Option (Nat × Groups)

/-- What follows: it takes a position and the groups so far. -/
abbrev Next := Nat → Groups → Outcome

/-! ### Characters -/

/-- Lower-case characters that have the same upper case, besides themselves. -/
def caseKin : List (List Nat) :=
  [[0x69, 0x131], [0x73, 0x17f], [0xb5, 0x3bc], [0x345, 0x3b9, 0x1fbe], [0x390, 0x1fd3],
    [0x3b0, 0x1fe3], [0x3b2, 0x3d0], [0x3b5, 0x3f5], [0x3b8, 0x3d1], [0x3ba, 0x3f0], [0x3c0, 0x3d6],
    [0x3c1, 0x3f1], [0x3c2, 0x3c3], [0x3c6, 0x3d5], [0x432, 0x1c80], [0x434, 0x1c81],
    [0x43e, 0x1c82], [0x441, 0x1c83], [0x442, 0x1c84, 0x1c85], [0x44a, 0x1c86], [0x463, 0x1c87],
    [0x1c88, 0xa64b], [0x1e61, 0x1e9b], [0xfb05, 0xfb06]]

/-- The lower case of a code point. -/
def lower (ascii : Bool) (n : Nat) : Nat :=
  if ascii then (if 65 ≤ n ∧ n ≤ 90 then n + 32 else n) else shiftCase lowerRuns n

/-- The lower-case characters that stand for one lower-case character when case is ignored. -/
def kin (ascii : Bool) (n : Nat) : List Nat :=
  if ascii then [n] else ((caseKin.find? fun family => family.contains n).getD [n])

/-- The code points with a given lower case. -/
def upperSources (ascii : Bool) (n : Nat) : List Nat :=
  if ascii then (if 97 ≤ n ∧ n ≤ 122 then [n, n - 32] else [n])
  else n :: lowerRuns.filterMap fun r =>
    let m := (n : Int) - r.delta
    if 0 ≤ m ∧ shiftCase lowerRuns m.toNat = n ∧ m.toNat ≠ n then some m.toNat else none

/-- Whether a code point belongs to a class. -/
def holdsClass (ascii : Bool) (k : CharClass) (n : Nat) : Bool :=
  match k with
  | .digit => if ascii then 48 ≤ n && n ≤ 57 else inRanges decimalDigitRanges n
  | .space => if ascii then n == 32 || (9 ≤ n && n ≤ 13) else inRanges blankRanges n
  | .word =>
    n == 95 || (if ascii then (48 ≤ n && n ≤ 57) || (65 ≤ n && n ≤ 90) || (97 ≤ n && n ≤ 122)
      else inRanges alphanumericRanges n)

/-- Whether a member of a set holds a code point. -/
def holdsItem (ascii : Bool) (i : SetItem) (n : Nat) : Bool :=
  match i with
  | .char c => c == n
  | .range low high => low ≤ n && n ≤ high
  | .cls k negated => holdsClass ascii k n != negated

/-- Whether a set holds a code point; when case is ignored, also one that differs in case. -/
def holdsAny (flags : PatternFlags) (items : List SetItem) (n : Nat) : Bool :=
  if flags.ignoreCase then
    let forms := (kin flags.ascii (lower flags.ascii n)).flatMap (upperSources flags.ascii)
    items.any fun i => match i with
      | .cls .. => holdsItem flags.ascii i (lower flags.ascii n)
      | i => forms.any (holdsItem flags.ascii i)
  else items.any fun i => holdsItem flags.ascii i n

/-- Whether two code points are the same, up to case when it is ignored. -/
def sameChar (flags : PatternFlags) (c n : Nat) : Bool :=
  if flags.ignoreCase then (kin flags.ascii (lower flags.ascii c)).contains (lower flags.ascii n) else c == n

/-- Whether a word character stands at a position. -/
def wordAt (flags : PatternFlags) (text : Array Nat) (i : Nat) : Bool :=
  match text[i]? with
  | some n => holdsClass flags.ascii .word n
  | none => false

/-- Whether a word character stands before a position. -/
def wordBefore (flags : PatternFlags) (text : Array Nat) (i : Nat) : Bool :=
  i != 0 && wordAt flags text (i - 1)

/-- Whether a condition holds at a position. An empty text has no places between characters, inside words or
not. -/
def holdsAt (flags : PatternFlags) (text : Array Nat) (a : Anchor) (i : Nat) : Bool :=
  let atEnd := i == text.size
  let beforeBreak := text[i]? == some 10
  match a with
  | .textStart => i == 0
  | .textEnd => atEnd
  | .lineStart => i == 0 || (flags.multiline && text[i - 1]? == some 10)
  | .lineEnd => atEnd || (beforeBreak && (flags.multiline || i + 1 == text.size))
  | .boundary => wordBefore flags text i != wordAt flags text i
  | .noBoundary => text.size != 0 && wordBefore flags text i == wordAt flags text i

/-- Takes one character if it passes a test. -/
def takeOne (text : Array Nat) (p : Nat → Bool) (i : Nat) (gs : Groups) (next : Next) : Outcome :=
  match text[i]? with
  | some n => if p n then next (i + 1) gs else none
  | none => none

/-- Takes again what a group took. -/
def takeAgain (flags : PatternFlags) (text : Array Nat) (g : Nat) (i : Nat) (gs : Groups) (next : Next) :
    Outcome :=
  match gs.lookup g with
  | none => none
  | some (start, stop) =>
    let n := stop - start
    if i + n ≤ text.size ∧ (List.range n).all fun k =>
        match text[start + k]?, text[i + k]? with
        | some a, some b =>
          if flags.ignoreCase then lower flags.ascii a == lower flags.ascii b else a == b
        | _, _ => false
    then next (i + n) gs else none

/-! ### Repetition -/

/-- Rounds of a repetition; `last` is where the round before began. -/
def rounds (body : Nat → Groups → Next → Outcome) (mode : RepeatMode) (min : Nat) (max : Option Nat) :
    (fuel count : Nat) → (last : Option Nat) → Nat → Groups → Next → Outcome
  | 0, _, _, _, _, _ => none
  | fuel + 1, count, last, i, gs, next =>
    let mayGoOn := (match max with | some m => decide (count < m) | none => true) && last != some i
    if count < min then
      if mode = .possessive then
        match body i gs fun j gs => some (j, gs) with
        | some (j, gs) => rounds body mode min max fuel (count + 1) last j gs next
        | none => none
      else body i gs fun j gs => rounds body mode min max fuel (count + 1) last j gs next
    else
      match mode with
      | .greedy =>
        let again := if mayGoOn then
            body i gs fun j gs => rounds body mode min max fuel (count + 1) (some i) j gs next
          else none
        again.orElse fun _ => next i gs
      | .lazy =>
        (next i gs).orElse fun _ =>
          if mayGoOn then body i gs fun j gs => rounds body mode min max fuel (count + 1) (some i) j gs next
          else none
      | .possessive =>
        let again := if mayGoOn then body i gs fun j gs => some (j, gs) else none
        match again with
        | some (j, gs) => rounds body mode min max fuel (count + 1) (some i) j gs next
        | none => next i gs

/-! ### Matching -/

mutual

/-- Matches an expression at a position, then what follows. -/
def run (text : Array Nat) (groups : List (Nat × Nat × Option Nat)) :
    Regex → PatternFlags → Nat → Groups → Next → Outcome
  | .char c, flags, i, gs, next => takeOne text (sameChar flags c) i gs next
  | .notChar c, flags, i, gs, next => takeOne text (fun n => !sameChar flags c n) i gs next
  | .any, flags, i, gs, next => takeOne text (fun n => flags.dotAll || n != 10) i gs next
  | .oneOf negated items, flags, i, gs, next =>
    takeOne text (fun n => holdsAny flags items n != negated) i gs next
  | .anchor a, flags, i, gs, next => if holdsAt flags text a i then next i gs else none
  | .seq items, flags, i, gs, next => runSeq text groups items flags i gs next
  | .alt options, flags, i, gs, next => runAlt text groups options flags i gs next
  | .many min max mode body, flags, i, gs, next =>
    rounds (fun i gs next => run text groups body flags i gs next) mode min max
      (min + text.size + 2) 0 none i gs next
  | .group number add remove body, flags, i, gs, next =>
    let base := if add.ascii then { flags with ascii := false } else flags
    run text groups body ((base.union add).without remove) i gs fun j gs =>
      next j (match number with
        | some n => (n, i, j) :: gs
        | none => gs)
  | .backref n, flags, i, gs, next => takeAgain flags text n i gs next
  | .look true negated body, flags, i, gs, next =>
    match run text groups body flags i gs (fun j gs => some (j, gs)) with
    | some (_, gs') => if negated then none else next i gs'
    | none => if negated then next i gs else none
  | .look false negated body, flags, i, gs, next =>
    let back := (width groups body).1
    let found := if back ≤ i then run text groups body flags (i - back) gs (fun j gs => some (j, gs)) else none
    match found with
    | some (_, gs') => if negated then none else next i gs'
    | none => if negated then next i gs else none
  | .atomic body, flags, i, gs, next =>
    match run text groups body flags i gs (fun j gs => some (j, gs)) with
    | some (j, gs) => next j gs
    | none => none
  | .ifGroup n yes no, flags, i, gs, next =>
    if (gs.lookup n).isSome then run text groups yes flags i gs next
    else match no with
      | some r => run text groups r flags i gs next
      | none => next i gs

/-- Matches expressions one after the other. -/
def runSeq (text : Array Nat) (groups : List (Nat × Nat × Option Nat)) :
    List Regex → PatternFlags → Nat → Groups → Next → Outcome
  | [], _, i, gs, next => next i gs
  | r :: rest, flags, i, gs, next =>
    run text groups r flags i gs fun j gs => runSeq text groups rest flags j gs next

/-- Tries expressions in order. -/
def runAlt (text : Array Nat) (groups : List (Nat × Nat × Option Nat)) :
    List Regex → PatternFlags → Nat → Groups → Next → Outcome
  | [], _, _, _, _ => none
  | r :: rest, flags, i, gs, next =>
    (run text groups r flags i gs next).orElse fun _ => runAlt text groups rest flags i gs next

end

/-- Whether an expression matches at the start of a text. -/
def Compiled.matches (c : Compiled) (s : String) : Bool :=
  (run (s.toList.map Char.toNat).toArray c.groups c.regex c.flags 0 [] fun j gs => some (j, gs)).isSome

end Conform.Regex
