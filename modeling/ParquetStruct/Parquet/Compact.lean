/-
# ParquetStruct.Parquet.Compact — the compact encoding of structures.

Metadata are structures of numbered fields.  A field is written as one byte for its kind and its
distance from the field before it, then its value; a structure ends in a zero byte.  Integers are
folded so that small magnitudes have small codes, and written in groups of seven bits.
-/

namespace ParquetStruct.Parquet.Compact

/-! ## Integers -/

/-- A number in groups of seven bits, lowest first; every group but the last is marked. -/
def varint (n : Nat) : List UInt8 :=
  if n < 128 then [UInt8.ofNat n] else UInt8.ofNat (128 + n % 128) :: varint (n / 128)
termination_by n
decreasing_by omega

/-- The code of an integer: even for the naturals, odd for the negative numbers. -/
def zigzag : Int → Nat
  | .ofNat n => 2 * n
  | .negSucc n => 2 * n + 1

/-- The lowest bytes of a number, lowest first. -/
def littleEndian : (count : Nat) → Nat → List UInt8
  | 0, _ => []
  | count + 1, n => UInt8.ofNat (n % 256) :: littleEndian count (n / 256)

/-! ## Values -/

/-- An encoded value: the code of its kind, and its bytes. -/
structure Encoded where
  kind : Nat
  bytes : List UInt8
  deriving DecidableEq, Repr, Inhabited

/-- A truth value, which is told by its kind alone. -/
def bool (b : Bool) : Encoded := ⟨if b then 1 else 2, []⟩

/-- An integer of 8 bits. -/
def int8 (n : Int8) : Encoded := ⟨3, [n.toUInt8]⟩

/-- An integer of 32 bits. -/
def int32 (n : Int) : Encoded := ⟨5, varint (zigzag n)⟩

/-- An integer of 64 bits. -/
def int64 (n : Int) : Encoded := ⟨6, varint (zigzag n)⟩

/-- A text, behind its length in bytes. -/
def text (s : String) : Encoded := ⟨8, varint s.utf8ByteSize ++ s.toUTF8.toList⟩

/-- The fields of a structure, in ascending order, given the number of the field before them. -/
def fieldBytes (before : Nat) : List (Nat × Encoded) → List UInt8
  | [] => [0]
  | (number, value) :: rest =>
    let distance := number - before
    -- A distance that is too wide for its half of the byte is left out, and the number follows.
    (if distance ≤ 15 then [UInt8.ofNat (16 * distance + value.kind)]
      else UInt8.ofNat value.kind :: varint (zigzag number)) ++
    value.bytes ++ fieldBytes number rest

/-- A structure, of whose fields those without a value are left out. -/
def struct (fields : List (Nat × Option Encoded)) : Encoded :=
  ⟨12, fieldBytes 0 (fields.filterMap fun f => f.2.map fun value => (f.1, value))⟩

/-- A structure with one field, which tells by its number which of several things it is. -/
def choice (number : Nat) (value : Encoded) : Encoded := struct [(number, some value)]

/-- A list of structures. -/
def structs (items : List Encoded) : Encoded :=
  let count := items.length
  ⟨9, (if count < 15 then [UInt8.ofNat (16 * count + 12)] else 0xfc :: varint count) ++
    items.flatMap Encoded.bytes⟩

end ParquetStruct.Parquet.Compact
