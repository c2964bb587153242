/-
# ParquetStruct.Struct.Tag — the struct tag that describes a column.

A tag is a list of key and value entries in the order they were added.  Its text encloses them in
backquotes under the key `parquet`; delimiters and control characters in values are written as a
percent sign and two hexadecimal digits, so any raw column name stays inside one tag on one line.
-/

namespace ParquetStruct.Struct

/-- The entries of a struct tag, first added first. -/
structure Tag where
  entries : List (String × String) := []
  deriving DecidableEq, Repr, Inhabited

namespace Tag

/-! ## Building tags -/

/-- The tag with one more entry. -/
def push (t : Tag) (key value : String) : Tag :=
  ⟨t.entries ++ [(key, value)]⟩

/-- The tag with one more entry, if there is a value for it. -/
def pushOpt (t : Tag) (key : String) : Option String → Tag
  | some value => t.push key value
  | none => t

/-- The entries of one tag, then those of another. -/
def append (t u : Tag) : Tag :=
  ⟨t.entries ++ u.entries⟩

instance : Append Tag := ⟨append⟩

@[simp] theorem entries_push (t : Tag) (key value : String) :
    (t.push key value).entries = t.entries ++ [(key, value)] := rfl

@[simp] theorem entries_pushOpt (t : Tag) (key : String) (value : Option String) :
    (t.pushOpt key value).entries = t.entries ++ (value.map fun v => (key, v)).toList := by
  cases value <;> simp [pushOpt]

@[simp] theorem entries_append (t u : Tag) :
    (t ++ u).entries = t.entries ++ u.entries := rfl

/-! ## The text of a tag -/

/-- The characters that no tag value may hold as they are: the percent sign, the delimiters of
tags and of their entries, the backslash, and the ASCII control characters. -/
def isReserved (c : Char) : Bool :=
  c == '%' || c == '"' || c == '\x60' || c == '\\' || c == ',' || c.toNat < 0x20 ||
    c.toNat == 0x7f

/-- The upper-case hexadecimal digit of a number below sixteen. -/
def hexDigit (n : Nat) : Char :=
  if n < 10 then Char.ofNat (48 + n) else Char.ofNat (55 + n)

/-- A character as tag values spell it. -/
def escapeChar (c : Char) : List Char :=
  if isReserved c then ['%', hexDigit (c.toNat / 16), hexDigit (c.toNat % 16)] else [c]

/-- A text as tag values spell it. -/
def escape (cs : List Char) : List Char :=
  cs.flatMap escapeChar

@[simp] theorem escape_nil : escape [] = [] := rfl

@[simp] theorem escape_cons (c : Char) (cs : List Char) :
    escape (c :: cs) = escapeChar c ++ escape cs := by
  simp [escape]

/-- One entry as tags spell it; keys are taken as they are. -/
def entryChars (entry : String × String) : List Char :=
  entry.1.toList ++ '=' :: escape entry.2.toList

/-- The characters of a tag, delimiters included. -/
def chars (t : Tag) : List Char :=
  "`parquet:\"".toList ++ [',', ' '].intercalate (t.entries.map entryChars) ++ "\"`".toList

/-- The text of a tag. -/
def text (t : Tag) : String := String.ofList t.chars

end Tag

end ParquetStruct.Struct
