/-
# ParquetStruct.Number.Binary64 — non-negative double-precision numbers, exactly.

Every finite double is a whole multiple of the smallest positive one, `2 ^ -1074`.  A double is
held as that multiple, so products, quotients and comparisons are computed on natural numbers and
rounded once, to 53 significant bits, to the nearest double and to an even one in a tie.
-/

namespace ParquetStruct.Number

/-- The quotient rounded to the nearest number, a half to the even neighbour. -/
def roundDiv (num den : Nat) : Nat :=
  let q := num / den
  let twice := 2 * (num % den)
  if twice < den then q
  else if den < twice then q + 1
  else q + q % 2

/-- A finite non-negative double, as a multiple of `2 ^ -1074`. -/
structure Binary64 where
  units : Nat
  deriving DecidableEq, Repr, Inhabited

namespace Binary64

/-- How many units make one. -/
def unitsPerOne : Nat := Nat.pow 2 1074

/-- The distance from a double to the next larger one, in units. -/
def gapAbove (units : Nat) : Nat := Nat.pow 2 (Nat.log2 units - 52)

/-- The distance from a double to the next smaller one, in units: half as much at a power of two,
where the doubles below lie closer together. -/
def gapBelow (units : Nat) : Nat :=
  let gap := gapAbove units
  if 1 < gap ∧ units = gap * Nat.pow 2 52 then gap / 2 else gap

/-- The double nearest to `num / den`; `none` if it is too large for a finite double. -/
def ofRatio? (num den : Nat) : Option Binary64 :=
  let scaled := num * unitsPerOne
  let gap := gapAbove (scaled / den)
  -- Rounding up to a power of two gives a multiple of the wider gap beyond it as well.
  let units := roundDiv scaled (den * gap) * gap
  if units < Nat.pow 2 1024 * unitsPerOne then some ⟨units⟩ else none

/-- The double nearest to a power of ten. -/
def tenPow? (k : Nat) : Option Binary64 := ofRatio? (Nat.pow 10 k) 1

/-- The rounded product of two doubles. -/
def mul? (x y : Binary64) : Option Binary64 :=
  ofRatio? (x.units * y.units) (unitsPerOne * unitsPerOne)

/-- The rounded quotient of two doubles. -/
def div? (x y : Binary64) : Option Binary64 := ofRatio? x.units y.units

/-- The largest power of ten that is a finite double. -/
def largestTenPow : Nat := 308

/-- A double divided by ten to the `k`, in steps of at most the largest power of ten; the result
of every step is rounded. -/
def scaleDown? (x : Binary64) (k : Nat) : Option Binary64 :=
  if k ≤ largestTenPow then
    (tenPow? k).bind x.div?
  else if x.units = 0 then
    some x
  else
    ((tenPow? largestTenPow).bind x.div?).bind fun y => y.scaleDown? (k - largestTenPow)
termination_by k
decreasing_by simp [largestTenPow] at *; omega

/-- The double for `significand * 10 ^ exponent`: the significand is rounded first, then scaled.
`none` if the result is too large for a finite double. -/
def ofDecimal? (significand : Nat) (exponent : Int) : Option Binary64 :=
  (ofRatio? significand 1).bind fun x =>
    match exponent with
    | .ofNat k =>
      if k ≤ largestTenPow then (tenPow? k).bind x.mul?
      else if x.units = 0 then some x
      else none
    | .negSucc k => x.scaleDown? (k + 1)

end Binary64

end ParquetStruct.Number
