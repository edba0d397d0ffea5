import Conform.Path
import Mathlib

/-!
Paths that can be read back. The text of a path says which steps it takes: a field opens with a point unless it comes
first, a variant with an angle bracket, and a position and a key share the square bracket but go on with a number on the
one hand and with a quote on the other. Quoted text ends at the first quote that is not escaped
(`quotedChars_append_inj`), so every step ends where its text does (`Segment.Legible.written_append_inj`), and different
paths have different texts (`Path.text_unambiguous`).
-/

namespace Conform

/-! ### Quoted text -/

/-- The number that hexadecimal digits spell, most significant first. -/
def hexNumber (ds : List Char) : Nat := ds.foldl (fun n c => 16 * n + (hexValue? c).getD 0) 0

theorem hexValue?_digitChar : ∀ d < 16, hexValue? (Nat.digitChar d) = some d := by
  decide

theorem hexNumber_toDigits (n : Nat) : hexNumber (Nat.toDigits 16 n) = n := by
  induction n using Nat.strongRecOn with
  | ind n ih =>
    rw [Nat.toDigits_eq_if (by decide)]
    split
    · next small => simp [hexNumber, hexValue?_digitChar n small]
    · next large =>
      have spelled := ih (n / 16) (by omega)
      have digit : n % 16 < 16 := Nat.mod_lt _ (by decide)
      unfold hexNumber at spelled ⊢
      rw [List.foldl_append, spelled, List.foldl_cons, List.foldl_nil, hexValue?_digitChar _ digit, Option.getD_some]
      omega

theorem hexNumber_hexDigits (width n : Nat) : hexNumber (hexDigits width n) = n := by
  have zeros (k : Nat) : (List.replicate k '0').foldl (fun n c => 16 * n + (hexValue? c).getD 0) 0 = 0 := by
    induction k with
    | zero => rfl
    | succ k ih =>
      rw [List.replicate_succ, List.foldl_cons]
      exact ih
  have spelled := hexNumber_toDigits n
  unfold hexNumber at spelled ⊢
  rw [hexDigits, List.foldl_append, zeros, spelled]

theorem length_hexDigits {width n : Nat} (wide : 0 < width) (small : n < 16 ^ width) :
    (hexDigits width n).length = width := by
  have fits := (Nat.length_toDigits_le_iff (by decide) wide).mpr small
  rw [hexDigits, List.length_append, List.length_replicate]
  omega

/-- The character that so many hexadecimal digits spell, and what follows them. -/
def readHex (width : Nat) (cs : List Char) : Char × List Char := (Char.ofNat (hexNumber (cs.take width)), cs.drop width)

theorem readHex_hexDigits {width : Nat} {c : Char} (wide : 0 < width) (small : c.toNat < 16 ^ width) (rest : List Char) :
    readHex width (hexDigits width c.toNat ++ rest) = (c, rest) := by
  have length := length_hexDigits wide small
  rw [readHex, List.take_left' length, List.drop_left' length, hexNumber_hexDigits, Char.ofNat_toNat]

/-- The character that stands inside quotes at the start of a text, and what follows it. -/
def readEscaped : List Char → Option (Char × List Char)
  | '\\' :: 'n' :: rest => some ('\n', rest)
  | '\\' :: 'r' :: rest => some ('\r', rest)
  | '\\' :: 't' :: rest => some ('\t', rest)
  | '\\' :: 'x' :: rest => some (readHex 2 rest)
  | '\\' :: 'u' :: rest => some (readHex 4 rest)
  | '\\' :: 'U' :: rest => some (readHex 8 rest)
  | '\\' :: c :: rest => some (c, rest)
  | c :: rest => some (c, rest)
  | [] => none

/-- The characters that text is quoted with. -/
def IsQuote (q : Char) : Prop := q = '\'' ∨ q = '"'

theorem chooseQuote_isQuote (cs : List Char) : IsQuote (chooseQuote cs) := by
  unfold chooseQuote
  split
  · exact .inr rfl
  · exact .inl rfl

/-- A character inside quotes is read back, whatever follows. -/
theorem readEscaped_escapeChar {q : Char} (quote : IsQuote q) (c : Char) (rest : List Char) :
    readEscaped (escapeChar q c ++ rest) = some (c, rest) := by
  unfold escapeChar
  split
  · next special =>
    obtain rfl | rfl := special
    · obtain rfl | rfl := quote <;> rfl
    · rfl
  · next plain =>
    split
    · next line => subst line; rfl
    split
    · next back => subst back; rfl
    split
    · next tab => subst tab; rfl
    split
    · rw [List.singleton_append, readEscaped.eq_def]
      have unmarked : c ≠ '\\' := fun same => plain (.inr same)
      split <;> simp_all
    have valid : c.toNat < 0xd800 ∨ 0xdfff < c.toNat ∧ c.toNat < 0x110000 := c.valid
    split
    · next byte => exact congrArg some (readHex_hexDigits (by decide) (by simpa using byte) rest)
    split
    · next short => exact congrArg some (readHex_hexDigits (by decide) (by simpa using short) rest)
    · exact congrArg some (readHex_hexDigits (by decide) (by omega) rest)

/-- No character inside quotes starts as the quote does. -/
theorem escapeChar_head {q : Char} (quote : IsQuote q) (c : Char) : ∃ d rest, escapeChar q c = d :: rest ∧ d ≠ q := by
  have marked : '\\' ≠ q := by
    obtain rfl | rfl := quote <;> decide
  unfold escapeChar
  split
  · exact ⟨_, _, rfl, marked⟩
  · next plain =>
    have other : c ≠ q := fun same => plain (.inl same)
    repeat' split
    all_goals first | exact ⟨_, _, rfl, marked⟩ | exact ⟨_, _, rfl, other⟩

theorem escaped_append_inj {q : Char} (quote : IsQuote q) : ∀ {cs ds : List Char} {rest rest' : List Char},
    cs.flatMap (escapeChar q) ++ q :: rest = ds.flatMap (escapeChar q) ++ q :: rest' → cs = ds ∧ rest = rest'
  | [], [], _, _, same => ⟨rfl, by simpa using same⟩
  | [], d :: ds, _, _, same => by
    obtain ⟨e, more, spelled, other⟩ := escapeChar_head quote d
    rw [List.flatMap_nil, List.nil_append, List.flatMap_cons, spelled] at same
    exact absurd (List.cons.inj same).1.symm other
  | c :: cs, [], _, _, same => by
    obtain ⟨e, more, spelled, other⟩ := escapeChar_head quote c
    rw [List.flatMap_nil, List.nil_append, List.flatMap_cons, spelled] at same
    exact absurd (List.cons.inj same).1 other
  | c :: cs, d :: ds, rest, rest', same => by
    rw [List.flatMap_cons, List.flatMap_cons, List.append_assoc, List.append_assoc] at same
    have read := congrArg readEscaped same
    rw [readEscaped_escapeChar quote, readEscaped_escapeChar quote, Option.some.injEq, Prod.mk.injEq] at read
    obtain ⟨rfl, later⟩ := read
    obtain ⟨rfl, rfl⟩ := escaped_append_inj quote later
    exact ⟨rfl, rfl⟩

/-- Quoted text is told from any other, whatever follows. -/
theorem quotedChars_append_inj {cs ds rest rest' : List Char} (same : quotedChars cs ++ rest = quotedChars ds ++ rest') :
    cs = ds ∧ rest = rest' := by
  unfold quotedChars at same
  simp only [List.cons_append, List.append_assoc, List.nil_append, List.cons.injEq] at same
  obtain ⟨quote, inside⟩ := same
  rw [quote] at inside
  exact escaped_append_inj (chooseQuote_isQuote ds) inside

/-! ### Numbers -/

theorem mem_repr_int {n : Int} {c : Char} (hc : c ∈ n.repr.toList) : c = '-' ∨ c.isDigit = true := by
  have digits {k : Nat} (hc : c ∈ k.repr.toList) : c.isDigit = true := by
    rw [Nat.repr_eq_ofList_toDigits, String.toList_ofList] at hc
    exact Nat.isDigit_of_mem_toDigits (by decide) (by decide) hc
  rw [Int.repr_eq_if] at hc
  split at hc
  · exact .inr (digits hc)
  · rw [String.toList_append, List.mem_append] at hc
    rcases hc with hc | hc
    · exact .inl (by simpa using hc)
    · exact .inr (digits hc)

namespace Value
variable {v w : Value} {n m : Int}

/-- A whole number reads as its digits or as a word. -/
theorem str_of_asInt? (whole : v.asInt? = some n) :
    v.str = n.repr ∨ ∃ b, v = .bool b ∧ v.str = boolText b := by
  cases v with
  | bool b => exact .inr ⟨b, rfl, rfl⟩
  | int k =>
    obtain rfl : k = n := by simpa [asInt?] using whole
    exact .inl rfl
  | member e name payload =>
    cases payload with
    | int k =>
      obtain ⟨base, rfl⟩ : e.base = .int ∧ k = n := by simpa [asInt?] using whole
      refine .inl ?_
      rw [str, if_pos base]
      rfl
    | _ => simp [asInt?] at whole
  | _ => simp [asInt?] at whole

theorem same_of_asInt? (hv : v.asInt? = some n) (hw : w.asInt? = some n) : v.same w = true := by
  have place {u : Value} (hu : u.asInt? = some n) : u.magnitude? = some (.ofInt n) := by
    cases u with
    | bool | int => exact congrArg (Option.map Magnitude.ofInt) hu
    | member e name payload => cases payload <;> simp_all [asInt?, magnitude?]
    | _ => simp [asInt?] at hu
  have scalar : scalarEq v w = true := by
    simp [scalarEq, place hv, place hw, Magnitude.ofInt, Magnitude.same]
  rw [same, Bool.or_eq_true]
  right
  cases v with
  | bool | int => rw [eq] <;> first | exact scalar | simp
  | member e name payload => cases w <;> rw [eq] <;> simp_all
  | _ => simp [asInt?] at hv

/-- Whole numbers that read the same are equal. -/
theorem same_of_str (hv : v.asInt? = some n) (hw : w.asInt? = some m) (read : v.str = w.str) : v.same w = true := by
  -- A word starts with a letter, a number with a digit or a sign.
  have apart (k : Int) (b : Bool) : k.repr ≠ boolText b := by
    intro same
    have letter : 'e' ∈ k.repr.toList := by
      rw [same]
      cases b <;> decide
    rcases mem_repr_int letter with sign | digit
    · exact absurd sign (by decide)
    · exact absurd digit (by decide)
  rcases str_of_asInt? hv with hv' | ⟨b, rfl, hv'⟩ <;> rcases str_of_asInt? hw with hw' | ⟨b', rfl, hw'⟩ <;>
    rw [hv', hw'] at read
  · obtain rfl := Int.repr_injective read
    exact same_of_asInt? hv hw
  · exact absurd read (apart n b')
  · exact absurd read.symm (apart m b)
  · obtain rfl : b = b' := by
      cases b <;> cases b' <;> first | rfl | exact absurd read (by decide)
    exact same_of_asInt? hv hv

theorem mem_str_of_asInt? (whole : v.asInt? = some n) {c : Char} (hc : c ∈ v.str.toList) : c ≠ ']' ∧ ¬IsQuote c := by
  have shown : c = '-' ∨ c.isDigit = true ∨ c ∈ "TrueFalse".toList := by
    rcases str_of_asInt? whole with read | ⟨b, rfl, read⟩ <;> rw [read] at hc
    · exact (mem_repr_int hc).imp_right .inl
    · refine .inr (.inr ?_)
      cases b <;> revert hc <;> simp +decide [boolText] <;> tauto
  constructor
  · rintro rfl
    simp +decide at shown
  · rintro (rfl | rfl) <;> simp +decide at shown

end Value

/-! ### Steps -/

/-- A name that holds none of the marks that paths are written with. Every identifier is one. -/
structure IsName (s : String) : Prop where
  nonempty : s ≠ ""
  unmarked : ∀ c ∈ s.toList, c ∉ ['.', '[', ']', '<', '>']

/-- A step into a field or a variant that has a name, to a position that is a whole number, or to a key that is a
text. -/
inductive Segment.Legible : Segment → Prop
  | field {name : String} (h : IsName name) : Legible (.field (.text name))
  | index {v : Value} {n : Int} (whole : v.asInt? = some n) : Legible ⟨.index, v⟩
  | key (k : String) : Legible (.key (.text k))
  | variant {name : String} (h : IsName name) : Legible (.variant (.text name))

/-- A path of such steps. -/
def Path.Legible (p : Path) : Prop := ∀ s ∈ p, s.Legible

/-- What opens a step that does not come first. -/
def Opens (c : Char) : Prop := c = '.' ∨ c = '[' ∨ c = '<'

/-- A text that is over, or goes on with a step. -/
def Turns (cs : List Char) : Prop := ∀ c, cs.head? = some c → Opens c

/-- Stretches without a mark that end at a mark, or where the text does, are told from each other. -/
theorem append_inj_of_marks (mark : Char → Prop) : ∀ {xs ys rest rest' : List Char}, (∀ c ∈ xs, ¬mark c) →
    (∀ c ∈ ys, ¬mark c) → (∀ c, rest.head? = some c → mark c) → (∀ c, rest'.head? = some c → mark c) →
    xs ++ rest = ys ++ rest' → xs = ys ∧ rest = rest'
  | [], [], _, _, _, _, _, _, same => ⟨rfl, same⟩
  | [], y :: ys, rest, _, _, hy, turns, _, same => by
    exact absurd (turns y (by rw [show rest = _ from same]; rfl)) (hy y List.mem_cons_self)
  | x :: xs, [], _, rest', hx, _, _, turns', same => by
    exact absurd (turns' x (by rw [← show _ = rest' from same]; rfl)) (hx x List.mem_cons_self)
  | x :: xs, y :: ys, _, _, hx, hy, turns, turns', same => by
    obtain ⟨rfl, later⟩ := List.cons.inj same
    obtain ⟨rfl, rfl⟩ := append_inj_of_marks mark (fun c hc => hx c (List.mem_cons_of_mem _ hc))
      (fun c hc => hy c (List.mem_cons_of_mem _ hc)) turns turns' later
    exact ⟨rfl, rfl⟩

namespace Segment
variable {s t : Segment} {rest rest' : List Char}

/-- A step as it is written after others. -/
def written (s : Segment) : List Char := (if s.kind = .field then ['.'] else []) ++ s.text.toList

theorem Legible.written_eq (legible : s.Legible) :
    (∃ name, s = .field (.text name) ∧ IsName name ∧ s.written = '.' :: name.toList) ∨
    (∃ v n, s = ⟨.index, v⟩ ∧ v.asInt? = some n ∧ s.written = '[' :: v.str.toList ++ [']']) ∨
    (∃ k, s = .key (.text k) ∧ s.written = '[' :: quotedChars k.toList ++ [']']) ∨
    ∃ name, s = .variant (.text name) ∧ IsName name ∧ s.written = '<' :: name.toList ++ ['>'] := by
  cases legible with
  | field h => exact .inl ⟨_, rfl, h, rfl⟩
  | index whole => exact .inr (.inl ⟨_, _, rfl, whole, by simp [written, text]⟩)
  | key k =>
    have shown : (Value.text k).repr = quoted k := rfl
    exact .inr (.inr (.inl ⟨k, rfl, by simp [written, text, Segment.key, shown, quoted]⟩))
  | variant h => exact .inr (.inr (.inr ⟨_, rfl, h, by simp [written, text, Segment.variant, Value.str]⟩))

/-- A step of a path says what step it is and where its text ends. -/
theorem Legible.written_append_inj (hs : s.Legible) (ht : t.Legible) (turns : Turns rest) (turns' : Turns rest')
    (same : s.written ++ rest = t.written ++ rest') : s.same t = true ∧ rest = rest' := by
  have closed {cs ds : List Char} {close : Char} (hc : ∀ c ∈ cs, c ≠ close) (hd : ∀ c ∈ ds, c ≠ close)
      (same : cs ++ close :: rest = ds ++ close :: rest') : cs = ds ∧ rest = rest' := by
    obtain ⟨rfl, later⟩ := append_inj_of_marks (· = close) hc hd (by simp) (by simp) same
    exact ⟨rfl, (List.cons.inj later).2⟩
  -- A position goes on with a character that is no quote, a key with a quote.
  have apart {v : Value} {n : Int} {cs : List Char} (whole : v.asInt? = some n) {rest rest' : List Char} :
      v.str.toList ++ ']' :: rest ≠ quotedChars cs ++ rest' := by
    have quote := chooseQuote_isQuote cs
    intro same
    rcases read : v.str.toList with _ | ⟨c, later⟩
    · rw [read, quotedChars] at same
      have first : ']' = chooseQuote cs := (List.cons.inj same).1
      rw [← first] at quote
      exact absurd quote (by unfold IsQuote; decide)
    · rw [read, quotedChars] at same
      have first : c = chooseQuote cs := (List.cons.inj same).1
      exact (Value.mem_str_of_asInt? whole (read ▸ List.mem_cons_self)).2 (first ▸ quote)
  have equal (name : String) : Value.same (.text name) (.text name) = true := by simp
  obtain ⟨name, rfl, hn, hw⟩ | ⟨v, n, rfl, whole, hw⟩ | ⟨k, rfl, hw⟩ | ⟨name, rfl, hn, hw⟩ := hs.written_eq <;>
    obtain ⟨name', rfl, hn', hw'⟩ | ⟨v', n', rfl, whole', hw'⟩ | ⟨k', rfl, hw'⟩ | ⟨name', rfl, hn', hw'⟩ :=
      ht.written_eq <;>
    rw [hw, hw'] at same <;>
    simp only [List.cons_append, List.append_assoc, List.nil_append, List.cons.injEq, Char.reduceEq, false_and,
      true_and] at same
  · have free {name : String} (h : IsName name) : ∀ c ∈ name.toList, ¬Opens c := by
      rintro c hc (rfl | rfl | rfl) <;> exact h.unmarked _ hc (by simp)
    obtain ⟨read, later⟩ := append_inj_of_marks _ (free hn) (free hn') turns turns' same
    obtain rfl := String.toList_inj.mp read
    exact ⟨by simp [Segment.same, Segment.field], later⟩
  · obtain ⟨read, later⟩ := closed (fun c hc => (Value.mem_str_of_asInt? whole hc).1)
      (fun c hc => (Value.mem_str_of_asInt? whole' hc).1) same
    exact ⟨by simp [Segment.same, Value.same_of_str whole whole' (String.toList_inj.mp read)], later⟩
  · exact absurd same (apart whole)
  · exact absurd same.symm (apart whole')
  · obtain ⟨read, later⟩ := quotedChars_append_inj same
    obtain rfl := String.toList_inj.mp read
    exact ⟨by simp [Segment.same, Segment.key], (List.cons.inj later).2⟩
  · have free {name : String} (h : IsName name) : ∀ c ∈ name.toList, c ≠ '>' := by
      rintro c hc rfl
      exact h.unmarked _ hc (by simp)
    obtain ⟨read, later⟩ := closed (free hn) (free hn') same
    obtain rfl := String.toList_inj.mp read
    exact ⟨by simp [Segment.same, Segment.variant], later⟩

end Segment

/-! ### Paths -/

namespace Path
variable {p q : Path}

theorem toList_textAfter (s : Segment) (p : Path) : (textAfter (s :: p)).toList = s.written ++ (textAfter p).toList := by
  rw [textAfter, Segment.written, String.toList_append, String.toList_append]
  split <;> rfl

theorem turns_textAfter : ∀ {p : Path}, p.Legible → Turns (textAfter p).toList
  | [], _ => nofun
  | s :: p, legible => by
    intro c hc
    rw [toList_textAfter] at hc
    obtain ⟨name, rfl, hn, hw⟩ | ⟨v, n, rfl, whole, hw⟩ | ⟨k, rfl, hw⟩ | ⟨name, rfl, hn, hw⟩ :=
      (legible s List.mem_cons_self).written_eq <;> rw [hw] at hc <;> cases hc <;> simp [Opens]

theorem textAfter_ne_nil {s : Segment} (legible : s.Legible) (p : Path) : (textAfter (s :: p)).toList ≠ [] := by
  rw [toList_textAfter]
  obtain ⟨name, -, -, hw⟩ | ⟨v, n, -, -, hw⟩ | ⟨k, -, hw⟩ | ⟨name, -, -, hw⟩ := legible.written_eq <;> rw [hw] <;> simp

theorem same_of_textAfter : ∀ {p q : Path}, p.Legible → q.Legible → (textAfter p).toList = (textAfter q).toList →
    p.same q = true
  | [], [], _, _, _ => rfl
  | [], t :: q, _, hq, read => absurd read.symm (textAfter_ne_nil (hq t List.mem_cons_self) q)
  | s :: p, [], hp, _, read => absurd read (textAfter_ne_nil (hp s List.mem_cons_self) p)
  | s :: p, t :: q, hp, hq, read => by
    have hp' : Legible p := fun s hs => hp s (List.mem_cons_of_mem _ hs)
    have hq' : Legible q := fun s hs => hq s (List.mem_cons_of_mem _ hs)
    rw [toList_textAfter, toList_textAfter] at read
    obtain ⟨step, later⟩ := (hp s List.mem_cons_self).written_append_inj (hq t List.mem_cons_self) (turns_textAfter hp')
      (turns_textAfter hq') read
    rw [same, step, same_of_textAfter hp' hq' later]
    rfl

/-- What a path adds to its text when it comes after another: a point before a name. -/
def lead : List Char → List Char
  | [] => []
  | c :: cs => if c = '[' ∨ c = '<' then c :: cs else '.' :: c :: cs

theorem textAfter_eq_lead : ∀ {p : Path}, p.Legible → (textAfter p).toList = lead p.text.toList
  | [], _ => rfl
  | s :: p, legible => by
    rw [toList_textAfter, text, String.toList_append]
    have step := legible s List.mem_cons_self
    cases step with
    | @field name h =>
      rcases spelled : name.toList with _ | ⟨c, cs⟩
      · exact absurd (String.toList_inj.mp spelled) h.nonempty
      · have free := h.unmarked c (spelled ▸ List.mem_cons_self)
        simp only [List.mem_cons, List.not_mem_nil, or_false, not_or] at free
        simp [Segment.written, Segment.field, Segment.text, Value.str, spelled, lead, free]
    | index whole => simp [Segment.written, Segment.text, lead]
    | key k => simp [Segment.written, Segment.key, Segment.text, lead]
    | variant h => simp [Segment.written, Segment.variant, Segment.text, lead]

/-- Different paths read differently: with names for fields and variants, whole numbers for positions and texts for
keys, a text is that of one place only. -/
theorem text_unambiguous (hp : p.Legible) (hq : q.Legible) (different : p.same q = false) : p.text ≠ q.text := by
  intro read
  have after : (textAfter p).toList = (textAfter q).toList := by
    rw [textAfter_eq_lead hp, textAfter_eq_lead hq, read]
  cases different.symm.trans (same_of_textAfter hp hq after)

/-- A key that holds what stands between two keys is told from them by its quotes. -/
theorem text_unambiguous_of_keys :
    let p : Path := [.field (.text "scores"), .key (.text "a']['b")]
    let q : Path := [.field (.text "scores"), .key (.text "a"), .key (.text "b")]
    p.Legible ∧ q.Legible ∧ p.same q = false ∧ p.text ≠ q.text := by
  intro p q
  have name : IsName "scores" := ⟨by decide, by simp⟩
  have hp : p.Legible := by
    intro s hs
    rcases List.mem_pair.mp hs with rfl | rfl
    · exact .field name
    · exact .key _
  have hq : q.Legible := by
    intro s hs
    simp only [q, List.mem_cons, List.not_mem_nil, or_false] at hs
    rcases hs with rfl | rfl | rfl
    · exact .field name
    · exact .key _
    · exact .key _
  have different : p.same q = false := by simp [p, q, same, Segment.same, Segment.field, Segment.key]
  exact ⟨hp, hq, different, text_unambiguous hp hq different⟩

end Path
end Conform
