/-
# ParquetStruct.Struct.Identifier — Parquet names as exported Go identifiers.

Every byte of a name that no Go identifier may hold is written as its decimal number; then the
first letter is made upper case, or, if what comes first is no letter, a fixed lead is put in
front.  Only the empty name has the empty identifier.
-/

namespace ParquetStruct.Struct

/-- The characters that identifiers keep: ASCII letters, digits and the underscore. -/
def isIdentifierChar (c : Char) : Bool :=
  c.isAlphanum || c == '_'

/-- A character as identifiers spell it: kept, or as the decimal numbers of its UTF-8 bytes. -/
def spellChar (c : Char) : List Char :=
  if isIdentifierChar c then [c]
  else (String.utf8EncodeChar c).flatMap fun b => Nat.toDigits 10 b.toNat

/-- What comes before an identifier that would not start with a letter. -/
def lead : String := "PARGO_PREFIX_"

/-- Makes spelled characters start with an upper-case letter. -/
def capitalize : List Char → List Char
  | [] => []
  | c :: cs =>
    if c.isLower then c.toUpper :: cs
    else if c.isUpper then c :: cs
    else lead.toList ++ c :: cs

/-- The exported Go identifier for a Parquet name. -/
def identifier (name : String) : String :=
  String.ofList (capitalize (name.toList.flatMap spellChar))

@[simp] theorem identifier_empty : identifier "" = "" := rfl

end ParquetStruct.Struct
