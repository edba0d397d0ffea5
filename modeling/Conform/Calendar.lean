import Conform.Number.Digits

/-!
Dates and moments of the Gregorian calendar: their texts, and the order of moments, which compares
instants when both carry an offset and wall clocks when neither does.
-/

namespace Conform

/-- A calendar date. -/
structure Date where
  year : Nat
  month : Nat
  day : Nat
  deriving Repr, DecidableEq

/-- A date and a time of day, with the offset of its zone in seconds when it has one. -/
structure Moment where
  date : Date
  hour : Nat
  minute : Nat
  second : Nat
  micro : Nat
  offset : Option Int
  deriving Repr, DecidableEq

namespace Date

/-- Days from the start of the first year to the start of a year. -/
def daysBeforeYear (year : Nat) : Nat :=
  let y := year - 1
  y * 365 + y / 4 - y / 100 + y / 400

/-- Whether a year has a leap day. -/
def isLeap (year : Nat) : Bool := year % 4 == 0 && (year % 100 != 0 || year % 400 == 0)

def monthLengths (year : Nat) : List Nat :=
  [31, if isLeap year then 29 else 28, 31, 30, 31, 30, 31, 31, 30, 31, 30, 31]

def ordinal (d : Date) : Nat :=
  daysBeforeYear d.year + ((monthLengths d.year).take (d.month - 1)).foldl (· + ·) 0 + d.day

/-- The text `2024-02-29`. -/
def iso (d : Date) : String := padded 4 d.year ++ "-" ++ padded 2 d.month ++ "-" ++ padded 2 d.day

end Date

namespace Moment

def wallClock (m : Moment) : Int :=
  ((((m.date.ordinal * 24 + m.hour) * 60 + m.minute) * 60 + m.second) * 1000000 + m.micro : Nat)

/-- Microseconds of the instant, when the offset is known. -/
def instant? (m : Moment) : Option Int := m.offset.map fun o => m.wallClock - o * 1000000

/-- The two numbers that order a pair of moments, when the pair can be ordered. -/
def comparable? (a b : Moment) : Option (Int × Int) :=
  match a.instant?, b.instant? with
  | some x, some y => some (x, y)
  | none, none => some (a.wallClock, b.wallClock)
  | _, _ => none

/-- A signed offset `+05:30`, with seconds when it has some. -/
def offsetText (o : Int) : String :=
  let n := o.natAbs
  (if o < 0 then "-" else "+") ++ padded 2 (n / 3600) ++ ":" ++ padded 2 (n / 60 % 60)
    ++ (if n % 60 = 0 then "" else ":" ++ padded 2 (n % 60))

/-- The text of a moment, with `separator` between date and time. -/
def isoWith (separator : String) (m : Moment) : String :=
  m.date.iso ++ separator ++ padded 2 m.hour ++ ":" ++ padded 2 m.minute ++ ":" ++ padded 2 m.second
    ++ (if m.micro = 0 then "" else "." ++ padded 6 m.micro)
    ++ (m.offset.map offsetText).getD ""

end Moment

/-! ### Reading -/

/-- Exactly `n` digits, and the rest. -/
def takeFixed (n : Nat) (cs : List Char) : Option (Nat × List Char) :=
  let (ds, _) := takeDigits (cs.take n)
  if ds.length = n then some (ofDigits ds, cs.drop n) else none

/-- Skips one given character. -/
def skip (c : Char) : List Char → Option (List Char)
  | d :: rest => if c = d then some rest else none
  | [] => none

/-- Reads `2024-02-29` at the front of a text. -/
def takeDate (cs : List Char) : Option (Date × List Char) := do
  let (year, cs) ← takeFixed 4 cs
  let (month, cs) ← takeFixed 2 (← skip '-' cs)
  let (day, cs) ← takeFixed 2 (← skip '-' cs)
  return (⟨year, month, day⟩, cs)

/-- Reads an offset: `Z`, or a sign and hours, minutes and perhaps seconds. -/
def takeOffset (cs : List Char) : Option (Option Int) :=
  match cs with
  | [] => some none
  | ['Z'] => some (some 0)
  | sign :: rest => do
    let (hours, rest) ← takeFixed 2 rest
    let (minutes, rest) ← takeFixed 2 (← skip ':' rest)
    let seconds ← match rest with
      | [] => some 0
      | rest => (takeFixed 2 (← skip ':' rest)).map (·.1)
    let total : Int := (hours * 3600 + minutes * 60 + seconds : Nat)
    return some (if sign = '-' then -total else total)

def Date.ofIso? (s : String) : Option Date := (takeDate s.toList).map (·.1)

/-- Reads a moment; seconds and fractions may be left out. -/
def Moment.ofIso? (s : String) : Option Moment := do
  let (date, cs) ← takeDate s.toList
  match cs with
  | [] => return ⟨date, 0, 0, 0, 0, none⟩
  | _ :: cs =>
    let (hour, cs) ← takeFixed 2 cs
    let (minute, cs) ← takeFixed 2 (← skip ':' cs)
    let (second, cs) ← match cs with
      | ':' :: rest => takeFixed 2 rest
      | rest => some (0, rest)
    let (micro, cs) := match cs with
      | '.' :: rest =>
        let (ds, rest) := takeDigits rest
        (ofDigits ((ds ++ List.replicate (6 - ds.length) 0).take 6), rest)
      | rest => (0, rest)
    return ⟨date, hour, minute, second, micro, ← takeOffset cs⟩

end Conform
