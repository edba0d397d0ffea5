import Conform.Number.Digits
import Conform.Regex.Basic
import Conform.Text.Classes
import Conform.Value.Construct

/-!
Reading the source of a regular expression. The reader looks one token ahead, where a token is a character
or an escaped character; problems are reported with the position that they concern. Every call of the
reader takes a token or enters a part of the source, so a number of steps computed from the length of
the source is enough.
-/

namespace Conform.Regex

/-- Options as a source gives them: those of an expression, and whether they ask for every script, as expressions
do without options. -/
structure InlineFlags where
  options : PatternFlags := {}
  everyScript : Bool := false

namespace InlineFlags

/-- Adds the option of a letter. -/
def add (f : InlineFlags) (c : Char) : InlineFlags :=
  if c = 'u' then { f with everyScript := true }
  else { f with options := f.options.union ((PatternFlags.ofLetter? c).getD {}) }

/-- The options of both. -/
def union (f g : InlineFlags) : InlineFlags := ⟨f.options.union g.options, f.everyScript || g.everyScript⟩

/-- Whether options ask both for ASCII and for every script. -/
def isMixed (f : InlineFlags) : Bool := f.options.ascii && f.everyScript

end InlineFlags

/-- The reader's state: where it is, the token ahead, the options so far, and the groups: their names, how
many were opened, the lengths of those that are closed, and, inside a look behind, how many there were
at its start. -/
structure Reader where
  source : Array Char
  index : Nat
  next : List Char
  flags : InlineFlags
  names : List (String × Nat)
  opened : Nat
  closed : List (Nat × Nat × Option Nat)
  lookBehind : Option Nat
  pendingRefs : List (Nat × Nat)

/-- Reading with a state and errors. -/
abbrev Read := StateT Reader (Except RegexError)

/-- The characters of ASCII digits. -/
def isDigit (c : Char) : Bool := '0' ≤ c && c ≤ '9'

/-- The characters of octal digits. -/
def isOctal (c : Char) : Bool := '0' ≤ c && c ≤ '7'

/-- The number of digits in a base. -/
def numeral (base : Nat) (cs : List Char) : Nat :=
  cs.foldl (fun n c => base * n + (hexValue? c).getD 0) 0

/-- Loads the token after the current one. -/
def advance : Read Unit := do
  let s ← get
  match s.source[s.index]? with
  | none => set { s with next := [] }
  | some '\\' =>
    match s.source[s.index + 1]? with
    | none => throw (.malformed "bad escape (end of pattern)" (s.source.size - 1))
    | some c => set { s with next := ['\\', c], index := s.index + 2 }
  | some c => set { s with next := [c], index := s.index + 1 }

/-- Takes the token ahead. -/
def take : Read (List Char) := do
  let s ← get
  advance
  return s.next

/-- Takes the token ahead if it is a given character. -/
def takeIf (c : Char) : Read Bool := do
  let s ← get
  if s.next = [c] then advance; return true else return false

/-- The position of the token ahead. -/
def position : Read Nat := do
  let s ← get
  return s.index - s.next.length

/-- Reports a problem some characters before the token ahead. -/
def fail {α : Type} (problem : String) (back : Nat := 0) : Read α := do
  throw (.malformed problem ((← position) - back))

/-- Takes up to a number of single characters of a kind. -/
def takeWhile (p : Char → Bool) : Nat → Read (List Char)
  | 0 => return []
  | n + 1 => do
    match (← get).next with
    | [c] => if p c then do advance; return c :: (← takeWhile p n) else return []
    | _ => return []

/-- Takes a name up to a terminator. -/
def takeName (terminator : Char) (what : String) : Nat → List Char → Read (List Char)
  | 0, name => return name
  | n + 1, name => do
    let token ← take
    if token.isEmpty then
      if name.isEmpty then fail ("missing " ++ what)
      else fail ("missing " ++ terminator.toString ++ ", unterminated name") name.length
    else if token = [terminator] then
      if name.isEmpty then fail ("missing " ++ what) 1 else return name
    else takeName terminator what n (name ++ token)

/-- Whether a character is a letter. -/
def isLetter (c : Char) : Bool := isWordChar c && c != '_' && !isDecimalDigit c

/-- Whether characters form a name. -/
def isName : List Char → Bool
  | [] => false
  | c :: rest => isWordChar c && !isDecimalDigit c && rest.all isWordChar

/-- Fails unless characters form a name. -/
def requireName (name : List Char) : Read Unit := do
  if !isName name then
    fail ("bad character in group name " ++ quoted (String.ofList name)) (name.length + 1)

/-- The character of an escape that stands for one. -/
def plainEscape? : Char → Option Nat
  | 'a' => some 7 | 'b' => some 8 | 'f' => some 12 | 'n' => some 10 | 'r' => some 13 | 't' => some 9
  | 'v' => some 11 | '\\' => some 92 | _ => none

/-- The class of an escape that stands for one. -/
def classEscape? : Char → Option SetItem
  | 'd' => some (.cls .digit false) | 'D' => some (.cls .digit true)
  | 's' => some (.cls .space false) | 'S' => some (.cls .space true)
  | 'w' => some (.cls .word false) | 'W' => some (.cls .word true)
  | _ => none

/-- The condition of an escape that stands for one. -/
def anchorEscape? : Char → Option Anchor
  | 'A' => some .textStart | 'Z' => some .textEnd | 'b' => some .boundary | 'B' => some .noBoundary
  | _ => none

/-- An escape with a fixed number of hexadecimal digits. -/
def hexEscape (letter : Char) (digits : Nat) : Read Nat := do
  let ds ← takeWhile (fun c => (hexValue? c).isSome) digits
  let shown := '\\' :: letter :: ds
  if ds.length ≠ digits then fail ("incomplete escape " ++ String.ofList shown) shown.length
  let n := numeral 16 ds
  if n > 0x7fffffff then throw .characterTooLarge
  if n > 0x10ffff then fail ("bad escape " ++ String.ofList shown) shown.length
  return n

/-- An escape of octal digits, none above `0o377`. -/
def octalEscape (ds : List Char) : Read Nat := do
  let n := numeral 8 ds
  if n > 0o377 then
    fail ("octal escape value \\" ++ String.ofList ds ++ " outside of range 0-0o377") (ds.length + 1)
  return n

/-- An escape that stands for itself; letters are reserved. -/
def selfEscape (c : Char) : Read Nat := do
  if c.isAlpha || isDigit c then fail ("bad escape \\" ++ c.toString) 2
  return c.toNat

/-- A member of a set that is written as an escape. -/
def setEscape (c : Char) : Read SetItem := do
  match plainEscape? c with
  | some n => return .char n
  | none =>
    match classEscape? c with
    | some item => return item
    | none =>
      if c = 'x' then return .char (← hexEscape c 2)
      else if c = 'u' then return .char (← hexEscape c 4)
      else if c = 'U' then return .char (← hexEscape c 8)
      else if isOctal c then return .char (← octalEscape (c :: (← takeWhile isOctal 2)))
      else return .char (← selfEscape c)

/-- Whether a group is closed. -/
def isClosed (s : Reader) (n : Nat) : Bool := (s.closed.lookup n).isSome

/-- Fails when a reference inside a look behind is to a group of the same look behind. -/
def checkLookBehind (n : Nat) : Read Unit := do
  let s ← get
  match s.lookBehind with
  | none => return
  | some before =>
    if !isClosed s n then fail "cannot refer to an open group"
    if n ≥ before then fail "cannot refer to group defined in the same lookbehind subpattern"

/-- A reference to a group by number, after the digits of its escape. -/
def groupReference (ds : List Char) : Read Regex := do
  let n := numeral 10 ds
  let s ← get
  if n < s.opened then
    if !isClosed s n then fail "cannot refer to an open group" (ds.length + 1)
    checkLookBehind n
    return .backref n
  fail ("invalid group reference " ++ toString n) ds.length

/-- An expression that is written as an escape. -/
def escape (c : Char) : Read Regex := do
  match anchorEscape? c with
  | some a => return .anchor a
  | none =>
  match classEscape? c with
  | some item => return .oneOf false [item]
  | none =>
  match plainEscape? c with
  | some n => return .char n
  | none =>
    if c = 'x' then return .char (← hexEscape c 2)
    else if c = 'u' then return .char (← hexEscape c 4)
    else if c = 'U' then return .char (← hexEscape c 8)
    else if c = '0' then return .char (numeral 8 (c :: (← takeWhile isOctal 2)))
    else if isDigit c then
      match ← takeWhile isDigit 1 with
      | [d] =>
        if isOctal c && isOctal d then
          match ← takeWhile isOctal 1 with
          | [e] => return .char (← octalEscape [c, d, e])
          | _ => groupReference [c, d]
        else groupReference [c, d]
      | _ => groupReference [c]
    else return .char (← selfEscape c)

/-- Removes repeated members of a set. -/
def distinctItems (items : List SetItem) : List SetItem :=
  items.foldl (fun seen i => if seen.contains i then seen else seen ++ [i]) []

/-- The rest of a character set that opened at `start`. -/
def setItems (start : Nat) : Nat → List SetItem → Read (List SetItem)
  | 0, items => return items
  | n + 1, items => do
    let unterminated {α : Type} : Read α := do
      fail "unterminated character set" ((← position) - start)
    let this ← take
    if this.isEmpty then unterminated
    if this = [']'] && !items.isEmpty then return items
    let first ← match this with
      | ['\\', c] => setEscape c
      | c :: _ => pure (.char c.toNat)
      | [] => pure (.char 0)
    if ← takeIf '-' then
      let that ← take
      if that.isEmpty then unterminated
      if that = [']'] then return items ++ [first, .char '-'.toNat]
      let second ← match that with
        | ['\\', c] => setEscape c
        | c :: _ => pure (.char c.toNat)
        | [] => pure (.char 0)
      let bad {α : Type} : Read α :=
        fail ("bad character range " ++ String.ofList this ++ "-" ++ String.ofList that)
          (this.length + 1 + that.length)
      match first, second with
      | .char low, .char high => if high < low then bad else setItems start n (items ++ [.range low high])
      | _, _ => bad
    else setItems start n (items ++ [first])

/-- A character set whose opening bracket is at `start`. -/
def charSet (start : Nat) : Read Regex := do
  let negated ← takeIf '^'
  let items := distinctItems (← setItems start ((← get).source.size + 1) [])
  match items, negated with
  | [.char c], false => return .char c
  | [.char c], true => return .notChar c
  | items, negated => return .oneOf negated items

/-- The largest count of a repetition, exclusive. -/
def repeatLimit : Nat := 4294967295

/-- The bounds of a repetition whose first character is `c`, or nothing if a brace stands for itself. -/
def bounds (c : Char) : Read (Option (Nat × Option Nat)) := do
  if c = '?' then return some (0, some 1)
  else if c = '*' then return some (0, none)
  else if c = '+' then return some (1, none)
  else
    let s ← get
    if s.next = ['}'] then return none
    let here ← position
    let size := s.source.size
    let low ← takeWhile isDigit size
    let high ← if ← takeIf ',' then takeWhile isDigit size else pure low
    if ← takeIf '}' then
      let least := numeral 10 low
      let most := numeral 10 high
      if least ≥ repeatLimit || most ≥ repeatLimit then throw .repeatTooLarge
      if !high.isEmpty && most < least then
        fail "min repeat greater than max repeat" ((← position) - here)
      return some (least, if high.isEmpty then none else some most)
    else
      modify fun t => { t with index := here }
      advance
      return none

/-- Reads the letters of options from a first one; stops at a closing bracket, a colon or a minus. -/
def flagLetters : Nat → Char → InlineFlags → Read (InlineFlags × Char)
  | 0, c, add => return (add, c)
  | n + 1, c, add => do
    if c = 'L' then fail "bad inline flags: cannot use 'L' flag with a str pattern"
    let add := add.add c
    if add.isMixed then fail "bad inline flags: flags 'a', 'u' and 'L' are incompatible"
    match ← take with
    | [] => fail "missing -, : or )"
    | [d] =>
      if d = ')' || d = '-' || d = ':' then return (add, d)
      else if (PatternFlags.ofLetter? d).isSome || d = 'L' then flagLetters n d add
      else fail (if isLetter d then "unknown flag" else "missing -, : or )") 1
    | token => fail "missing -, : or )" token.length

/-- Reads the letters of options that are turned off. -/
def offLetters : Nat → Char → PatternFlags → Read PatternFlags
  | 0, _, remove => return remove
  | n + 1, c, remove => do
    if c = 'a' || c = 'u' || c = 'L' then
      fail "bad inline flags: cannot turn off flags 'a', 'u' and 'L'"
    let remove := remove.union ((PatternFlags.ofLetter? c).getD {})
    match ← take with
    | [] => fail "missing :"
    | [':'] => return remove
    | [d] =>
      if (PatternFlags.ofLetter? d).isSome || d = 'L' then offLetters n d remove
      else fail (if isLetter d then "unknown flag" else "missing :") 1
    | token => fail "missing :" token.length

/-- Options in brackets: none for the whole expression, else those that a group adds and removes. -/
def inlineFlags (c : Char) : Read (Option (PatternFlags × PatternFlags)) := do
  let size := (← get).source.size
  let (add, stop) ← if c = '-' then pure ({}, '-') else flagLetters size c {}
  if stop = ')' then
    modify fun s => { s with flags := s.flags.union add }
    return none
  let remove ← if stop = '-' then do
      match ← take with
      | [] => fail "missing flag"
      | [d] =>
        if (PatternFlags.ofLetter? d).isSome || d = 'L' then offLetters size d {}
        else fail (if isLetter d then "unknown flag" else "missing flag") 1
      | token => fail "missing flag" token.length
    else pure {}
  if add.options ≠ add.options.without remove then fail "bad inline flags: flag turned on and off" 1
  -- asking for every script turns off what an outer part says of ASCII
  return some (add.options, { remove with ascii := remove.ascii || add.everyScript })

/-- Skips a comment up to the end of a line. -/
def skipLine : Nat → Read Unit
  | 0 => return
  | n + 1 => do
    let token ← take
    if token.isEmpty || token = ['\n'] then return else skipLine n

/-- Skips a comment in brackets that opened at `start`. -/
def skipComment (start : Nat) : Nat → Read Unit
  | 0 => return
  | n + 1 => do
    if (← get).next.isEmpty then fail "missing ), unterminated comment" ((← position) - start)
    if (← take) = [')'] then return else skipComment start n

/-- Opens a group. -/
def openGroup (name : Option (List Char)) : Read Nat := do
  let s ← get
  let n := s.opened
  match name with
  | none => set { s with opened := n + 1 }
  | some name =>
    let text := String.ofList name
    match s.names.lookup text with
    | some before =>
      fail ("redefinition of group name " ++ quoted text ++ " as group " ++ toString n ++ "; was group "
        ++ toString before) (name.length + 1)
    | none => set { s with opened := n + 1, names := (text, n) :: s.names }
  return n

/-- The largest number of a group, exclusive. -/
def groupLimit : Nat := 1073741823

/-- Closes a group. -/
def closeGroup (n : Nat) (body : Regex) : Read Unit :=
  modify fun s => { s with closed := (n, body.width s.closed) :: s.closed }

/-- Whether an expression is a repetition. -/
def isMany : Regex → Bool
  | .many .. => true
  | _ => false

/-- Whether an expression is a condition on the position. -/
def isAnchor : Regex → Bool
  | .anchor _ => true
  | _ => false

/-- Whether characters are blank where blanks are skipped. -/
def isLayoutBlank (c : Char) : Bool :=
  c = ' ' || c = '\t' || c = '\n' || c = '\r' || c = '\x0b' || c = '\x0c'

/-- The name of a group that a reference or a definition gives. -/
def namedGroup (terminator : Char) : Read (List Char) := do
  let name ← takeName terminator "group name" ((← get).source.size + 1) []
  requireName name
  return name

/-- What opens after a bracket and a question mark. -/
inductive Opening where
  | group (name : Option (List Char)) (capture : Bool) (add remove : PatternFlags) (atomic : Bool)
  | look (ahead negated : Bool)
  | done (r : Option Regex)
  | condition (n : Nat)

/-- Reads what follows a bracket and a question mark; `first` says whether options for the whole
expression may stand here. -/
def opening (start : Nat) (first : Bool) : Read Opening := do
  match ← take with
  | [] => fail "unexpected end of pattern"
  | ['P'] =>
    if ← takeIf '<' then return .group (some (← namedGroup '>')) true {} {} false
    else if ← takeIf '=' then
      let name ← namedGroup ')'
      let text := String.ofList name
      match (← get).names.lookup text with
      | none => fail ("unknown group name " ++ quoted text) (name.length + 1)
      | some n =>
        if !isClosed (← get) n then fail "cannot refer to an open group" (name.length + 1)
        checkLookBehind n
        return .done (some (.backref n))
    else
      let token ← take
      if token.isEmpty then fail "unexpected end of pattern"
      fail ("unknown extension ?P" ++ String.ofList token) (token.length + 2)
  | [':'] => return .group none false {} {} false
  | ['#'] => do skipComment start ((← get).source.size + 1); return .done none
  | ['='] => return .look true false
  | ['!'] => return .look true true
  | ['<'] =>
    match ← take with
    | [] => fail "unexpected end of pattern"
    | ['='] => return .look false false
    | ['!'] => return .look false true
    | token => fail ("unknown extension ?<" ++ String.ofList token) (token.length + 2)
  | ['('] =>
    let name ← takeName ')' "group name" ((← get).source.size + 1) []
    let text := String.ofList name
    if isName name then
      match (← get).names.lookup text with
      | none => fail ("unknown group name " ++ quoted text) (name.length + 1)
      | some n => checkLookBehind n; return .condition n
    else match wholeNumber? text with
      | some (.ofNat n) =>
        if n = 0 then fail "bad group number" (name.length + 1)
        if n ≥ groupLimit then fail ("invalid group reference " ++ toString n) (name.length + 1)
        let here := (← position) - name.length - 1
        modify fun s => { s with pendingRefs := s.pendingRefs ++ [(n, here)] }
        checkLookBehind n
        return .condition n
      | _ => fail ("bad character in group name " ++ quoted text) (name.length + 1)
  | ['>'] => return .group none false {} {} true
  | [c] =>
    if (PatternFlags.ofLetter? c).isSome || c = '-' || c = 'L' then
      match ← inlineFlags c with
      | none =>
        if !first then
          fail "global flags not at the start of the expression" ((← position) - start)
        return .done none
      | some (add, remove) => return .group none false add remove false
    else fail ("unknown extension ?" ++ c.toString) 2
  | token => fail ("unknown extension ?" ++ String.ofList token) (token.length + 1)

/-- Fails unless the bracket that opened at `start` closes here. -/
def requireClose (start : Nat) : Read Unit := do
  if !(← takeIf ')') then fail "missing ), unterminated subpattern" ((← position) - start)

/-- Splits off the last item. -/
def unsnoc : List Regex → Option (List Regex × Regex)
  | [] => none
  | [r] => some ([], r)
  | r :: rest => (unsnoc rest).map fun (before, last) => (r :: before, last)

/-- Removes the brackets of groups that neither capture nor change options. -/
def spliceGroups (items : List Regex) : List Regex :=
  items.flatMap fun
    | .group none add remove (.seq body) =>
      if add = {} ∧ remove = {} then body else [.group none add remove (.seq body)]
    | r => [r]

mutual

/-- A choice of sequences. -/
def choice : (steps : Nat) → (verbose nested : Bool) → Read Regex
  | 0, _, _ => return .seq []
  | steps + 1, verbose, nested => do
    match ← options steps verbose nested true with
    | [r] => return r
    | rs => return .alt rs

/-- The sequences of a choice. -/
def options : (steps : Nat) → (verbose nested first : Bool) → Read (List Regex)
  | 0, _, _, _ => return []
  | steps + 1, verbose, nested, first => do
    let items ← sequence steps verbose (!nested && first) []
    let r := Regex.seq (spliceGroups items)
    if ← takeIf '|' then
      let s ← get
      let verbose := if nested then verbose else s.flags.options.verbose
      return r :: (← options steps verbose nested false)
    else return [r]

/-- The items of a sequence, after those that were read. -/
def sequence : (steps : Nat) → (verbose first : Bool) → List Regex → Read (List Regex)
  | 0, _, _, items => return items
  | steps + 1, verbose, first, items => do
    let this := (← get).next
    match this with
    | [] | ['|'] | [')'] => return items
    | ['\\', c] => do
      advance
      sequence steps verbose first (items ++ [← escape c])
    | c :: _ =>
      advance
      let size := (← get).source.size
      if verbose && isLayoutBlank c then sequence steps verbose first items
      else if verbose && c = '#' then do
        skipLine (size + 1)
        sequence steps verbose first items
      else if c = '[' then do
        let start := (← position) - 1
        sequence steps verbose first (items ++ [← charSet start])
      else if c = '.' then sequence steps verbose first (items ++ [.any])
      else if c = '^' then sequence steps verbose first (items ++ [.anchor .lineStart])
      else if c = '$' then sequence steps verbose first (items ++ [.anchor .lineEnd])
      else if c = '*' || c = '+' || c = '?' || c = '{' then do
        let here ← position
        match ← bounds c with
        | none => sequence steps verbose first (items ++ [.char c.toNat])
        | some (low, high) =>
          match unsnoc items with
          | none => fail "nothing to repeat" ((← position) - here + 1)
          | some (before, last) =>
            if isAnchor last then fail "nothing to repeat" ((← position) - here + 1)
            if isMany last then fail "multiple repeat" ((← position) - here + 1)
            let isLazy ← takeIf '?'
            let isPossessive ← if isLazy then pure false else takeIf '+'
            let mode : RepeatMode :=
              if isLazy then .lazy else if isPossessive then .possessive else .greedy
            sequence steps verbose first (before ++ [.many low high mode last])
      else if c = '(' then do
        let start := (← position) - 1
        let what ← if ← takeIf '?' then opening start (first && items.isEmpty)
          else pure (.group none true {} {} false)
        match what with
        | .done none =>
          let s ← get
          sequence steps (if first then s.flags.options.verbose else verbose) first items
        | .done (some r) => sequence steps verbose first (items ++ [r])
        | .look ahead negated =>
          let before := (← get).lookBehind
          if !ahead && before.isNone then modify fun s => { s with lookBehind := some s.opened }
          let body ← choice steps verbose true
          if !ahead && before.isNone then modify fun s => { s with lookBehind := none }
          requireClose start
          sequence steps verbose first (items ++ [.look ahead negated body])
        | .condition n =>
          let yes ← sequence steps verbose false []
          let hasNo ← takeIf '|'
          let no ← if hasNo then sequence steps verbose false [] else pure []
          if hasNo && (← get).next = ['|'] then fail "conditional backref with more than two branches"
          let no := if hasNo then some (Regex.seq (spliceGroups no)) else none
          requireClose start
          sequence steps verbose first (items ++ [.ifGroup n (.seq (spliceGroups yes)) no])
        | .group name capture add remove isAtomic =>
          let number ← if capture then some <$> openGroup name else pure none
          let body ← choice steps ((verbose || add.verbose) && !remove.verbose) true
          requireClose start
          match number with
          | some n => closeGroup n body
          | none => pure ()
          let r := if isAtomic then Regex.atomic body else .group number add remove body
          sequence steps verbose first (items ++ [r])
      else sequence steps verbose first (items ++ [.char c.toNat])

end

mutual

/-- Whether every look behind has one length. -/
def lookBehindsFixed (groups : List (Nat × Nat × Option Nat)) : Regex → Bool
  | .look ahead _ body =>
    (ahead || (let (low, high) := width groups body; high == some low)) && lookBehindsFixed groups body
  | .seq items | .alt items => allFixed groups items
  | .many _ _ _ body | .group _ _ _ body | .atomic body => lookBehindsFixed groups body
  | .ifGroup _ yes no => lookBehindsFixed groups yes && (match no with
    | none => true
    | some r => lookBehindsFixed groups r)
  | _ => true

/-- Whether every look behind of some expressions has one length. -/
def allFixed (groups : List (Nat × Nat × Option Nat)) : List Regex → Bool
  | [] => true
  | r :: rest => lookBehindsFixed groups r && allFixed groups rest

end

/-- A regular expression with its options and the lengths of its groups. -/
structure Compiled where
  regex : Regex
  flags : PatternFlags
  groups : List (Nat × Nat × Option Nat)

/-- Reads a source with some options. -/
def compile (source : List Char) (flags : PatternFlags) : Except RegexError Compiled := do
  let start : Reader :=
    { source := source.toArray, index := 0, next := [], flags := { options := flags }, names := [], opened := 1,
      closed := [], lookBehind := none, pendingRefs := [] }
  let read : Read Regex := do
    advance
    let r ← choice (4 * source.length + 8) flags.verbose false
    if (← get).flags.isMixed then throw .mixedScripts
    if !(← get).next.isEmpty then fail "unbalanced parenthesis"
    return r
  let (regex, s) ← read.run start
  match s.pendingRefs.find? fun (n, _) => s.opened ≤ n with
  | some (n, here) => throw (.malformed ("invalid group reference " ++ toString n) here)
  | none => pure ()
  if !lookBehindsFixed s.closed regex then throw .variableLookBehind
  return ⟨regex, s.flags.options, s.closed⟩

end Conform.Regex
