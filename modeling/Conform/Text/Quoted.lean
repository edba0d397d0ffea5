import Conform.Text.Printable

/-!
Quoted text. A text stands in single quotes, or in double quotes when it holds a single quote and no
double one; the quote and the backslash are escaped, and so is every character that is not printable.
-/

namespace Conform

/-- A number in `width` lower-case hexadecimal digits. -/
def hexDigits (width n : Nat) : List Char :=
  let ds := Nat.toDigits 16 n
  List.replicate (width - ds.length) '0' ++ ds

/-- One character inside quotes. -/
def escapeChar (quote c : Char) : List Char :=
  if c = quote ∨ c = '\\' then ['\\', c]
  else if c = '\n' then ['\\', 'n']
  else if c = '\r' then ['\\', 'r']
  else if c = '\t' then ['\\', 't']
  else if isPrintable c then [c]
  else if c.toNat < 0x100 then ['\\', 'x'] ++ hexDigits 2 c.toNat
  else if c.toNat < 0x10000 then ['\\', 'u'] ++ hexDigits 4 c.toNat
  else ['\\', 'U'] ++ hexDigits 8 c.toNat

def chooseQuote (cs : List Char) : Char :=
  if cs.contains '\'' && !cs.contains '"' then '"' else '\''

def quotedChars (cs : List Char) : List Char :=
  let q := chooseQuote cs
  q :: cs.flatMap (escapeChar q) ++ [q]

def quoted (s : String) : String := String.ofList (quotedChars s.toList)

/-- One byte inside quotes: printable ASCII as it is, the rest in hexadecimal. -/
def escapeByte (quotes : List Char) (b : UInt8) : List Char :=
  let c := Char.ofNat b.toNat
  if c ∈ quotes ∨ c = '\\' then ['\\', c]
  else if c = '\n' then ['\\', 'n']
  else if c = '\r' then ['\\', 'r']
  else if c = '\t' then ['\\', 't']
  else if 0x20 ≤ b.toNat ∧ b.toNat < 0x7f then [c]
  else ['\\', 'x'] ++ hexDigits 2 b.toNat

/-- Bytes in quotes, with the mark `b` before them; a single quote that is marked everywhere is escaped
inside double quotes too. -/
def quotedBytes (markSingle : Bool) (bs : List UInt8) : String :=
  let q := chooseQuote (bs.map fun b => Char.ofNat b.toNat)
  let quotes := if markSingle then [q, '\''] else [q]
  String.ofList ('b' :: q :: bs.flatMap (escapeByte quotes) ++ [q])

end Conform
