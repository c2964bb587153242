/-
# ParquetStruct.Json.Quoted — string literals.

A string literal is read as a list of UTF-16 code points: characters stand for themselves, and
`\u` escapes may also name halves of surrogate pairs.  The text of a literal joins such halves;
a literal in which a half stands alone is well formed, but has no text.
-/

namespace ParquetStruct.Json

/-! ## Writing -/

/-- The lower-case hexadecimal digit of a number below sixteen. -/
def hexDigit (n : Nat) : Char := Nat.digitChar n

/-- A character as string literals spell it. -/
def quoteChar (c : Char) : List Char :=
  if c = '"' then ['\\', '"']
  else if c = '\\' then ['\\', '\\']
  else if c = '\x08' then ['\\', 'b']
  else if c = '\x0c' then ['\\', 'f']
  else if c = '\n' then ['\\', 'n']
  else if c = '\r' then ['\\', 'r']
  else if c = '\t' then ['\\', 't']
  else if c.toNat < 0x20 then
    ['\\', 'u', '0', '0', hexDigit (c.toNat / 16), hexDigit (c.toNat % 16)]
  else [c]

/-- The string literal for a text. -/
def quote (cs : List Char) : List Char :=
  '"' :: cs.flatMap quoteChar ++ ['"']

/-! ## Scanning -/

/-- The value of a hexadecimal digit, in either case. -/
def hexValue? (c : Char) : Option Nat :=
  if '0' ≤ c ∧ c ≤ '9' then some (c.toNat - 48)
  else if 'a' ≤ c ∧ c ≤ 'f' then some (c.toNat - 87)
  else if 'A' ≤ c ∧ c ≤ 'F' then some (c.toNat - 55)
  else none

/-- The number of four hexadecimal digits. -/
def hex4? (a b c d : Char) : Option Nat := do
  return 4096 * (← hexValue? a) + 256 * (← hexValue? b) + 16 * (← hexValue? c) + (← hexValue? d)

/-- The character that an escape of one letter names. -/
def letterEscape? (c : Char) : Option Char :=
  if c = '"' || c = '\\' || c = '/' then some c
  else if c = 'b' then some '\x08'
  else if c = 'f' then some '\x0c'
  else if c = 'n' then some '\n'
  else if c = 'r' then some '\r'
  else if c = 't' then some '\t'
  else none

/-- Scans a string literal after its opening quote, given the code points before, last first. -/
def scanCodes (seen : List Nat) : List Char → Option (List Nat × List Char)
  | [] => none
  | '"' :: rest => some (seen.reverse, rest)
  | '\\' :: 'u' :: a :: b :: c :: d :: rest =>
    match hex4? a b c d with
    | some n => scanCodes (n :: seen) rest
    | none => none
  | '\\' :: e :: rest =>
    match letterEscape? e with
    | some c => scanCodes (c.toNat :: seen) rest
    | none => none
  | c :: rest =>
    if c = '\\' || c.toNat < 0x20 then none else scanCodes (c.toNat :: seen) rest

/-- Whether a code point is the first half of a surrogate pair. -/
def isHighSurrogate (n : Nat) : Bool := 0xd800 ≤ n && n < 0xdc00

/-- Whether a code point is the second half of a surrogate pair. -/
def isLowSurrogate (n : Nat) : Bool := 0xdc00 ≤ n && n < 0xe000

/-- Joins surrogate pairs, given the text before, last character first; `none` if a half stands
alone. -/
def joinCodes (seen : List Char) : List Nat → Option (List Char)
  | [] => some seen.reverse
  | h :: l :: ns =>
    if isHighSurrogate h then
      if isLowSurrogate l then
        joinCodes (Char.ofNat (0x10000 + 0x400 * (h - 0xd800) + (l - 0xdc00)) :: seen) ns
      else none
    else if isLowSurrogate h then none
    else joinCodes (Char.ofNat h :: seen) (l :: ns)
  | [n] =>
    if isHighSurrogate n || isLowSurrogate n then none else some (Char.ofNat n :: seen).reverse

/-- Scans a string literal after its opening quote, and gives its text, if it has one, and the
rest. -/
def scanQuoted (cs : List Char) : Option (Option String × List Char) :=
  (scanCodes [] cs).map fun (codes, rest) => ((joinCodes [] codes).map String.ofList, rest)

/-- Scanned code points take up at least the closing quote. -/
theorem length_lt_of_scanCodes {seen : List Nat} {cs : List Char} {codes : List Nat}
    {rest : List Char} (h : scanCodes seen cs = some (codes, rest)) :
    rest.length < cs.length := by
  fun_induction scanCodes seen cs <;> simp_all <;> omega

/-- A scanned literal takes up at least its closing quote. -/
theorem length_lt_of_scanQuoted {cs : List Char} {s : Option String} {rest : List Char}
    (h : scanQuoted cs = some (s, rest)) : rest.length < cs.length := by
  obtain ⟨⟨codes, rest'⟩, hc, he⟩ := Option.map_eq_some_iff.mp h
  cases he
  exact length_lt_of_scanCodes hc

end ParquetStruct.Json
