/-
# ParquetStruct.Number.Shortest — the shortest decimal text of a double.

Of the decimals that round to a given double, the text shows one with the fewest digits, and of
those the nearest.  Its digits are found on the widest decimal grid with a point in the interval
of numbers that round to the double: if any grid point lies there, so does one of the value's two
neighbours on that grid.
-/
import ParquetStruct.Number.Binary64

namespace ParquetStruct.Number

namespace Binary64

/-! ## Digits -/

/-- Whether `c * 10 ^ p`, given as the grid step `num / den` in units, rounds to the double. -/
def contains (x : Binary64) (num den c : Nat) : Bool :=
  -- All three are counted in quarters of a unit, times `den`.
  let low := (4 * x.units - 2 * gapBelow x.units) * den
  let high := (4 * x.units + 2 * gapAbove x.units) * den
  let point := 4 * c * num
  -- A number halfway between two doubles rounds to the one with an even significand.
  if (x.units / gapAbove x.units) % 2 = 0 then low ≤ point && point ≤ high
  else low < point && point < high

/-- The multiple of `10 ^ p` nearest to the double, of the two neighbours that round to it. -/
def onGrid? (x : Binary64) (p : Int) : Option Nat :=
  let num := Nat.pow 10 p.toNat * unitsPerOne
  let den := Nat.pow 10 (-p).toNat
  let c := x.units * den / num
  match 0 < c && x.contains num den c, x.contains num den (c + 1) with
  | true, true => some (roundDiv (x.units * den) num)
  | true, false => some c
  | false, true => some (c + 1)
  | false, false => none

/-- The shortest digits of a positive double, and the power of ten they are counted in; zero has
no digits. -/
def shortest? (x : Binary64) : Option (Nat × Int) :=
  if x.units = 0 then none
  else
    -- From the grid of the largest powers of ten down to that of the smallest double.
    (List.range 634).findSome? fun (i : Nat) =>
      let p : Int := 309 - i
      (x.onGrid? p).map fun c => (c, p)

/-! ## Text -/

/-- Decimal digits with a point after the first `point` of them. -/
def positional (digits : List Char) (point : Int) : List Char :=
  if point ≤ 0 then
    "0.".toList ++ List.replicate (-point).toNat '0' ++ digits
  else if digits.length ≤ point.toNat then
    digits ++ List.replicate (point.toNat - digits.length) '0' ++ ".0".toList
  else
    digits.take point.toNat ++ '.' :: digits.drop point.toNat

/-- Decimal digits with the point after the first one, if more follow, and an exponent with its
sign. -/
def scientific (digits : List Char) (exponent : Int) : List Char :=
  let tail := digits.drop 1
  digits.take 1 ++ (if tail.isEmpty then [] else '.' :: tail) ++
    ['e', if exponent < 0 then '-' else '+'] ++ Nat.toDigits 10 exponent.natAbs

/-- The text of a double: positional, with at least one digit after the point, from `0.00001` up
to sixteen digits before the point, and with an exponent otherwise. -/
def text (x : Binary64) : String :=
  match x.shortest? with
  | none => "0.0"
  | some (c, p) =>
    let digits := Nat.toDigits 10 c
    let point := digits.length + p
    String.ofList <|
      if -5 < point && point ≤ 16 then positional digits point else scientific digits (point - 1)

end Binary64

end ParquetStruct.Number
