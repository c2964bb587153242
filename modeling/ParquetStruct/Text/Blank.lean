/-
# ParquetStruct.Text.Blank — white space, and trimming it.

`isBlank` is the Unicode property White_Space: twenty-five characters, among them the next-line
control, the no-break space and the ideographic space, but not the zero-width space.
-/

namespace ParquetStruct.Text

/-- Whether a character has the Unicode property White_Space. -/
def isBlank (c : Char) : Bool :=
  let n := c.toNat
  (0x09 ≤ n && n ≤ 0x0d) || n == 0x20 || n == 0x85 || n == 0xa0 || n == 0x1680 ||
    (0x2000 ≤ n && n ≤ 0x200a) || n == 0x2028 || n == 0x2029 || n == 0x202f || n == 0x205f ||
    n == 0x3000

/-! ## Trimming -/

/-- The text without the characters of the class `p` at its end. -/
def trimEndWhere (p : Char → Bool) (cs : List Char) : List Char :=
  (cs.reverse.dropWhile p).reverse

/-- The text without the characters of the class `p` at either end. -/
def trimWhere (p : Char → Bool) (cs : List Char) : List Char :=
  trimEndWhere p (cs.dropWhile p)

/-- The text without white space at either end. -/
def trim (cs : List Char) : List Char := trimWhere isBlank cs

/-- The text without white space at its end. -/
def trimEnd (cs : List Char) : List Char := trimEndWhere isBlank cs

/-- Trimming the end cuts off characters of the class, and nothing else. -/
theorem trimEndWhere_append (p : Char → Bool) (cs : List Char) :
    trimEndWhere p cs ++ (cs.reverse.takeWhile p).reverse = cs := by
  rw [trimEndWhere, ← List.reverse_append, List.takeWhile_append_dropWhile, List.reverse_reverse]

end ParquetStruct.Text
