/-
# ParquetStruct.Json.Number — number literals.

A literal keeps its digits as written.  What it denotes is decided afterwards: a literal without
fraction and exponent is an integer if it fits 64 bits, signed or unsigned, and every other literal
is a double, as is minus zero.
-/
import ParquetStruct.Number.Binary64

namespace ParquetStruct.Json

open ParquetStruct.Number

/-- The exponent of a number literal. -/
structure Exponent where
  negative : Bool
  digits : List Char
  deriving DecidableEq, Repr, Inhabited

/-- A number literal. -/
structure Literal where
  negative : Bool := false
  whole : List Char
  /-- The digits after the point, none if there is no point. -/
  fraction : List Char := []
  exponent : Option Exponent := none
  deriving DecidableEq, Repr, Inhabited

namespace Literal

/-! ## Writing and scanning -/

/-- The literal of an integer. -/
def ofInt (n : Int) : Literal :=
  { negative := n < 0, whole := Nat.toDigits 10 n.natAbs }

/-- The text of a literal, with a plus sign in front of no exponent. -/
def chars (n : Literal) : List Char :=
  (if n.negative then ['-'] else []) ++ n.whole ++
    (if n.fraction.isEmpty then [] else '.' :: n.fraction) ++
    match n.exponent with
    | none => []
    | some e => 'e' :: (if e.negative then ['-'] else []) ++ e.digits

/-- Scans the digits that a text starts with, at least one. -/
def scanDigits (cs : List Char) : Option (List Char × List Char) :=
  match cs.takeWhile Char.isDigit with
  | [] => none
  | digits => some (digits, cs.dropWhile Char.isDigit)

/-- Scans the digits of an exponent and adds it to a literal. -/
def scanExponentDigits (n : Literal) (negative : Bool) (cs : List Char) :
    Option (Literal × List Char) :=
  (scanDigits cs).map fun (digits, rest) => ({ n with exponent := some ⟨negative, digits⟩ }, rest)

/-- Scans an exponent after its letter. -/
def scanSigned (n : Literal) : List Char → Option (Literal × List Char)
  | '-' :: rest => scanExponentDigits n true rest
  | '+' :: rest => scanExponentDigits n false rest
  | rest => scanExponentDigits n false rest

/-- Scans an exponent, if there is one, after the other parts of a literal. -/
def scanExponent (n : Literal) : List Char → Option (Literal × List Char)
  | [] => some (n, [])
  | c :: rest => if c = 'e' ∨ c = 'E' then scanSigned n rest else some (n, c :: rest)

/-- Scans what follows the whole part of a literal. -/
def scanFraction (n : Literal) (cs : List Char) : Option (Literal × List Char) :=
  match cs with
  | '.' :: rest =>
    (scanDigits rest).bind fun (digits, rest) => scanExponent { n with fraction := digits } rest
  | _ => scanExponent n cs

/-- Scans a literal after its sign: a zero stands alone in front of point and exponent. -/
def scanWhole (negative : Bool) (cs : List Char) : Option (Literal × List Char) :=
  (scanDigits cs).bind fun (digits, rest) =>
    if digits.head? = some '0' ∧ digits ≠ ['0'] then none
    else scanFraction { negative, whole := digits } rest

/-- Scans the literal that a text starts with, and gives the rest of the text. -/
def scan (cs : List Char) : Option (Literal × List Char) :=
  match cs with
  | '-' :: rest => scanWhole true rest
  | _ => scanWhole false cs

/-! ## Scanning shortens the text -/

theorem length_lt_of_scanDigits {cs digits rest : List Char}
    (h : scanDigits cs = some (digits, rest)) : rest.length < cs.length := by
  have hsplit := congrArg List.length (List.takeWhile_append_dropWhile (p := Char.isDigit) (l := cs))
  rw [List.length_append] at hsplit
  unfold scanDigits at h
  split at h
  · cases h
  · rename_i hne
    cases h
    have := List.length_pos_iff.mpr hne
    omega

theorem length_lt_of_scanExponentDigits {n m : Literal} {negative : Bool} {cs rest : List Char}
    (h : scanExponentDigits n negative cs = some (m, rest)) : rest.length < cs.length := by
  obtain ⟨⟨digits, rest'⟩, hd, he⟩ := Option.map_eq_some_iff.mp h
  cases he
  exact length_lt_of_scanDigits hd

theorem length_lt_of_scanSigned {n m : Literal} {cs rest : List Char}
    (h : scanSigned n cs = some (m, rest)) : rest.length < cs.length := by
  unfold scanSigned at h
  split at h
  · exact Nat.lt_succ_of_lt (length_lt_of_scanExponentDigits h)
  · exact Nat.lt_succ_of_lt (length_lt_of_scanExponentDigits h)
  · exact length_lt_of_scanExponentDigits h

theorem length_le_of_scanExponent {n m : Literal} {cs rest : List Char}
    (h : scanExponent n cs = some (m, rest)) : rest.length ≤ cs.length := by
  unfold scanExponent at h
  split at h
  · cases h
    exact Nat.le_refl _
  · split at h
    · exact Nat.le_of_lt (Nat.lt_succ_of_lt (length_lt_of_scanSigned h))
    · cases h
      exact Nat.le_refl _

theorem length_le_of_scanFraction {n m : Literal} {cs rest : List Char}
    (h : scanFraction n cs = some (m, rest)) : rest.length ≤ cs.length := by
  unfold scanFraction at h
  split at h
  · obtain ⟨⟨digits, rest'⟩, hd, he⟩ := Option.bind_eq_some_iff.mp h
    have hlt := length_lt_of_scanDigits hd
    have hle := length_le_of_scanExponent he
    rw [List.length_cons]
    omega
  · exact length_le_of_scanExponent h

theorem length_lt_of_scanWhole {negative : Bool} {m : Literal} {cs rest : List Char}
    (h : scanWhole negative cs = some (m, rest)) : rest.length < cs.length := by
  obtain ⟨⟨digits, rest'⟩, hd, he⟩ := Option.bind_eq_some_iff.mp h
  have hlt := length_lt_of_scanDigits hd
  dsimp only at he
  split at he
  · cases he
  · exact Nat.lt_of_le_of_lt (length_le_of_scanFraction he) hlt

/-- A scanned literal takes up at least one digit. -/
theorem length_lt_of_scan {m : Literal} {cs rest : List Char}
    (h : scan cs = some (m, rest)) : rest.length < cs.length := by
  unfold scan at h
  split at h
  · exact Nat.lt_succ_of_lt (length_lt_of_scanWhole h)
  · exact length_lt_of_scanWhole h

/-! ## What a literal denotes -/

/-- The number that decimal digits denote. -/
def natOf (digits : List Char) : Nat :=
  digits.foldl (fun n d => 10 * n + (d.toNat - 48)) 0

/-- The largest number that 64 bits hold without a sign. -/
def maxWord : Nat := 18446744073709551615

/-- The largest magnitude of a negative number that 64 bits hold with a sign. -/
def maxNegative : Nat := 9223372036854775808

/-- Appends digits to a number as long as the result fits 64 bits, and counts those appended. -/
def absorb (n : Nat) : List Char → Nat × Nat
  | [] => (n, 0)
  | d :: ds =>
    let n' := 10 * n + (d.toNat - 48)
    if n' ≤ maxWord then
      let (m, k) := absorb n' ds
      (m, k + 1)
    else (n, 0)

/-- The magnitude of a literal as a double: of its digits, those that fit 64 bits count.  `none`
if it is too large for a finite double. -/
def magnitude? (n : Literal) : Option Binary64 :=
  let (significand, taken) := absorb 0 n.whole
  let (significand, takenAfter) := absorb significand n.fraction
  let written : Int :=
    match n.exponent with
    | none => 0
    | some e => if e.negative then -natOf e.digits else natOf e.digits
  Binary64.ofDecimal? significand (n.whole.length - taken - takenAfter + written)

/-- The integer that a literal denotes, if it denotes one. -/
def integer? (n : Literal) : Option Int :=
  if n.fraction.isEmpty && n.exponent.isNone then
    let m := natOf n.whole
    if n.negative then
      if 0 < m && m ≤ maxNegative then some (-m) else none
    else
      if m ≤ maxWord then some m else none
  else none

end Literal

end ParquetStruct.Json
